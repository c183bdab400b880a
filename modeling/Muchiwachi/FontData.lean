import Mathlib.Init

/-!
# The fonts of the application (`u8g_font_data.c`)

The font tables as the linker places them: 17 bytes about the font, then the glyphs.
-/

namespace Muchiwachi

/-- `u8g_font_profont22r`. -/
def u8gFontProfont22r : List UInt8 :=
  [0, 12, 21, 0, 252, 14, 3, 117, 7, 113, 32, 127, 252, 18, 252, 16, 252, 0, 0, 0, 12, 0, 0, 2, 14,
    14, 12, 4, 0, 192, 192, 192, 192, 192, 192, 192, 192, 192, 192, 0, 0, 192, 192, 6, 6, 6, 12, 2,
    10, 204, 204, 204, 204, 204, 204, 10, 10, 20, 12, 0, 4, 51, 0, 51, 0, 255, 192, 255, 192, 51, 0,
    51, 0, 255, 192, 255, 192, 51, 0, 51, 0, 10, 18, 36, 12, 0, 254, 12, 0, 12, 0, 63, 0, 127, 128,
    237, 192, 204, 192, 204, 0, 236, 0, 127, 0, 63, 128, 13, 192, 12, 192, 204, 192, 237, 192, 127,
    128, 63, 0, 12, 0, 12, 0, 10, 14, 28, 12, 0, 0, 63, 192, 127, 192, 204, 192, 205, 192, 207, 128,
    207, 0, 127, 0, 63, 128, 60, 192, 124, 192, 236, 192, 204, 192, 199, 128, 195, 0, 10, 14, 28,
    12, 0, 0, 62, 0, 127, 0, 227, 0, 199, 0, 206, 0, 252, 0, 120, 0, 120, 0, 252, 192, 207, 192,
    199, 128, 231, 128, 127, 192, 60, 192, 2, 6, 6, 12, 4, 10, 192, 192, 192, 192, 192, 192, 6, 18,
    18, 12, 2, 254, 12, 28, 56, 112, 224, 192, 192, 192, 192, 192, 192, 192, 192, 224, 112, 56, 28,
    12, 6, 18, 18, 12, 2, 254, 192, 224, 112, 56, 28, 12, 12, 12, 12, 12, 12, 12, 12, 28, 56, 112,
    224, 192, 10, 10, 20, 12, 0, 4, 12, 0, 12, 0, 204, 192, 255, 192, 63, 0, 63, 0, 255, 192, 204,
    192, 12, 0, 12, 0, 10, 10, 20, 12, 0, 2, 12, 0, 12, 0, 12, 0, 12, 0, 255, 192, 255, 192, 12, 0,
    12, 0, 12, 0, 12, 0, 5, 9, 9, 12, 2, 252, 48, 120, 120, 56, 24, 56, 112, 224, 64, 6, 2, 2, 12,
    2, 6, 252, 252, 4, 4, 4, 12, 3, 1, 96, 240, 240, 96, 11, 20, 40, 12, 0, 252, 0, 96, 0, 96, 0,
    192, 0, 192, 1, 128, 1, 128, 3, 0, 3, 0, 6, 0, 6, 0, 12, 0, 12, 0, 24, 0, 24, 0, 48, 0, 48, 0,
    96, 0, 96, 0, 192, 0, 192, 0, 10, 14, 28, 12, 0, 0, 63, 0, 127, 128, 225, 192, 193, 192, 195,
    192, 199, 192, 206, 192, 220, 192, 248, 192, 240, 192, 224, 192, 225, 192, 127, 128, 63, 0, 10,
    14, 28, 12, 0, 0, 12, 0, 12, 0, 124, 0, 124, 0, 12, 0, 12, 0, 12, 0, 12, 0, 12, 0, 12, 0, 12, 0,
    12, 0, 255, 192, 255, 192, 10, 14, 28, 12, 0, 0, 63, 0, 127, 128, 225, 192, 192, 192, 0, 192, 1,
    192, 3, 128, 7, 0, 14, 0, 28, 0, 56, 0, 112, 0, 255, 192, 255, 192, 10, 14, 28, 12, 0, 0, 63, 0,
    127, 128, 225, 192, 192, 192, 0, 192, 1, 128, 15, 0, 15, 128, 1, 192, 0, 192, 192, 192, 225,
    192, 127, 128, 63, 0, 10, 14, 28, 12, 0, 0, 3, 0, 7, 0, 15, 0, 31, 0, 59, 0, 115, 0, 227, 0,
    195, 0, 255, 192, 255, 192, 3, 0, 3, 0, 15, 192, 15, 192, 10, 14, 28, 12, 0, 0, 255, 192, 255,
    192, 192, 0, 192, 0, 255, 0, 255, 128, 1, 192, 0, 192, 0, 192, 0, 192, 192, 192, 225, 192, 127,
    128, 63, 0, 10, 14, 28, 12, 0, 0, 63, 0, 127, 0, 224, 0, 192, 0, 255, 0, 255, 128, 193, 192,
    192, 192, 192, 192, 192, 192, 192, 192, 225, 192, 127, 128, 63, 0, 10, 14, 28, 12, 0, 0, 255,
    192, 255, 192, 0, 192, 0, 192, 0, 192, 1, 192, 3, 128, 7, 0, 14, 0, 12, 0, 12, 0, 12, 0, 12, 0,
    12, 0, 10, 14, 28, 12, 0, 0, 63, 0, 127, 128, 225, 192, 192, 192, 192, 192, 97, 128, 63, 0, 127,
    128, 225, 192, 192, 192, 192, 192, 225, 192, 127, 128, 63, 0, 10, 14, 28, 12, 0, 0, 63, 0, 127,
    128, 225, 192, 192, 192, 192, 192, 192, 192, 192, 192, 224, 192, 127, 192, 63, 192, 0, 192, 1,
    192, 63, 128, 63, 0, 4, 10, 10, 12, 3, 1, 96, 240, 240, 96, 0, 0, 96, 240, 240, 96, 5, 15, 15,
    12, 2, 252, 48, 120, 120, 48, 0, 0, 48, 120, 120, 56, 24, 56, 112, 224, 64, 8, 14, 14, 12, 2, 0,
    3, 7, 14, 28, 56, 112, 224, 224, 112, 56, 28, 14, 7, 3, 10, 6, 12, 12, 0, 4, 255, 192, 255, 192,
    0, 0, 0, 0, 255, 192, 255, 192, 8, 14, 14, 12, 2, 0, 192, 224, 112, 56, 28, 14, 7, 7, 14, 28,
    56, 112, 224, 192, 10, 14, 28, 12, 0, 0, 63, 0, 127, 128, 225, 192, 192, 192, 0, 192, 1, 192, 3,
    128, 7, 0, 14, 0, 12, 0, 0, 0, 0, 0, 12, 0, 12, 0, 10, 14, 28, 12, 0, 0, 63, 0, 127, 128, 225,
    192, 192, 192, 199, 192, 207, 192, 204, 192, 204, 192, 207, 192, 199, 128, 192, 0, 224, 0, 127,
    192, 63, 192, 10, 14, 28, 12, 0, 0, 12, 0, 30, 0, 30, 0, 51, 0, 51, 0, 97, 128, 97, 128, 192,
    192, 255, 192, 255, 192, 192, 192, 192, 192, 192, 192, 192, 192, 10, 14, 28, 12, 0, 0, 255, 0,
    255, 128, 193, 192, 192, 192, 192, 192, 193, 128, 255, 0, 255, 128, 193, 192, 192, 192, 192,
    192, 193, 192, 255, 128, 255, 0, 10, 14, 28, 12, 0, 0, 63, 0, 127, 128, 225, 192, 192, 192, 192,
    0, 192, 0, 192, 0, 192, 0, 192, 0, 192, 0, 192, 192, 225, 192, 127, 128, 63, 0, 10, 14, 28, 12,
    0, 0, 255, 0, 255, 128, 193, 192, 192, 192, 192, 192, 192, 192, 192, 192, 192, 192, 192, 192,
    192, 192, 192, 192, 193, 192, 255, 128, 255, 0, 10, 14, 28, 12, 0, 0, 255, 192, 255, 192, 192,
    0, 192, 0, 192, 0, 192, 0, 255, 0, 255, 0, 192, 0, 192, 0, 192, 0, 192, 0, 255, 192, 255, 192,
    10, 14, 28, 12, 0, 0, 255, 192, 255, 192, 192, 0, 192, 0, 192, 0, 192, 0, 255, 0, 255, 0, 192,
    0, 192, 0, 192, 0, 192, 0, 192, 0, 192, 0, 10, 14, 28, 12, 0, 0, 63, 0, 127, 128, 225, 192, 192,
    192, 192, 0, 192, 0, 195, 192, 195, 192, 192, 192, 192, 192, 192, 192, 225, 192, 127, 128, 63,
    0, 10, 14, 28, 12, 0, 0, 192, 192, 192, 192, 192, 192, 192, 192, 192, 192, 192, 192, 255, 192,
    255, 192, 192, 192, 192, 192, 192, 192, 192, 192, 192, 192, 192, 192, 10, 14, 28, 12, 0, 0, 255,
    192, 255, 192, 12, 0, 12, 0, 12, 0, 12, 0, 12, 0, 12, 0, 12, 0, 12, 0, 12, 0, 12, 0, 255, 192,
    255, 192, 10, 14, 28, 12, 0, 0, 0, 192, 0, 192, 0, 192, 0, 192, 0, 192, 0, 192, 0, 192, 0, 192,
    192, 192, 192, 192, 192, 192, 225, 192, 127, 128, 63, 0, 10, 14, 28, 12, 0, 0, 193, 192, 195,
    128, 199, 0, 206, 0, 220, 0, 248, 0, 240, 0, 248, 0, 220, 0, 206, 0, 199, 0, 195, 128, 193, 192,
    192, 192, 10, 14, 28, 12, 0, 0, 192, 0, 192, 0, 192, 0, 192, 0, 192, 0, 192, 0, 192, 0, 192, 0,
    192, 0, 192, 0, 192, 0, 192, 0, 255, 192, 255, 192, 10, 14, 28, 12, 0, 0, 192, 192, 225, 192,
    243, 192, 255, 192, 222, 192, 204, 192, 204, 192, 204, 192, 192, 192, 192, 192, 192, 192, 192,
    192, 192, 192, 192, 192, 10, 14, 28, 12, 0, 0, 192, 192, 224, 192, 240, 192, 248, 192, 220, 192,
    206, 192, 199, 192, 195, 192, 193, 192, 192, 192, 192, 192, 192, 192, 192, 192, 192, 192, 10,
    14, 28, 12, 0, 0, 63, 0, 127, 128, 225, 192, 192, 192, 192, 192, 192, 192, 192, 192, 192, 192,
    192, 192, 192, 192, 192, 192, 225, 192, 127, 128, 63, 0, 10, 14, 28, 12, 0, 0, 255, 0, 255, 128,
    193, 192, 192, 192, 192, 192, 193, 192, 255, 128, 255, 0, 192, 0, 192, 0, 192, 0, 192, 0, 192,
    0, 192, 0, 10, 16, 32, 12, 0, 254, 63, 0, 127, 128, 225, 192, 192, 192, 192, 192, 192, 192, 192,
    192, 192, 192, 192, 192, 192, 192, 204, 192, 239, 192, 127, 128, 63, 128, 1, 192, 0, 192, 10,
    14, 28, 12, 0, 0, 255, 0, 255, 128, 193, 192, 192, 192, 192, 192, 193, 128, 255, 0, 255, 128,
    193, 192, 192, 192, 192, 192, 192, 192, 192, 192, 192, 192, 10, 14, 28, 12, 0, 0, 63, 0, 127,
    128, 225, 192, 192, 192, 192, 0, 224, 0, 127, 0, 63, 128, 1, 192, 0, 192, 192, 192, 225, 192,
    127, 128, 63, 0, 10, 14, 28, 12, 0, 0, 255, 192, 255, 192, 12, 0, 12, 0, 12, 0, 12, 0, 12, 0,
    12, 0, 12, 0, 12, 0, 12, 0, 12, 0, 12, 0, 12, 0, 10, 14, 28, 12, 0, 0, 192, 192, 192, 192, 192,
    192, 192, 192, 192, 192, 192, 192, 192, 192, 192, 192, 192, 192, 192, 192, 192, 192, 225, 192,
    127, 128, 63, 0, 10, 14, 28, 12, 0, 0, 192, 192, 192, 192, 192, 192, 192, 192, 192, 192, 192,
    192, 97, 128, 97, 128, 51, 0, 51, 0, 30, 0, 30, 0, 12, 0, 12, 0, 10, 14, 28, 12, 0, 0, 192, 192,
    192, 192, 192, 192, 192, 192, 192, 192, 192, 192, 204, 192, 204, 192, 204, 192, 222, 192, 255,
    192, 243, 192, 225, 192, 192, 192, 10, 14, 28, 12, 0, 0, 192, 192, 192, 192, 192, 192, 225, 192,
    115, 128, 63, 0, 30, 0, 30, 0, 63, 0, 115, 128, 225, 192, 192, 192, 192, 192, 192, 192, 10, 14,
    28, 12, 0, 0, 192, 192, 192, 192, 192, 192, 192, 192, 192, 192, 225, 192, 115, 128, 63, 0, 30,
    0, 12, 0, 12, 0, 12, 0, 12, 0, 12, 0, 10, 14, 28, 12, 0, 0, 255, 192, 255, 192, 0, 192, 1, 192,
    3, 128, 7, 0, 14, 0, 28, 0, 56, 0, 112, 0, 224, 0, 192, 0, 255, 192, 255, 192, 4, 18, 18, 12, 4,
    254, 240, 240, 192, 192, 192, 192, 192, 192, 192, 192, 192, 192, 192, 192, 192, 192, 240, 240,
    11, 20, 40, 12, 1, 252, 192, 0, 192, 0, 96, 0, 96, 0, 48, 0, 48, 0, 24, 0, 24, 0, 12, 0, 12, 0,
    6, 0, 6, 0, 3, 0, 3, 0, 1, 128, 1, 128, 0, 192, 0, 192, 0, 96, 0, 96, 4, 18, 18, 12, 2, 254,
    240, 240, 48, 48, 48, 48, 48, 48, 48, 48, 48, 48, 48, 48, 48, 48, 240, 240, 10, 6, 12, 12, 0, 8,
    12, 0, 30, 0, 63, 0, 115, 128, 225, 192, 64, 128, 12, 2, 4, 12, 0, 252, 255, 240, 255, 240, 4,
    4, 4, 12, 2, 12, 192, 224, 112, 48, 10, 10, 20, 12, 0, 0, 63, 192, 127, 192, 224, 192, 192, 192,
    192, 192, 193, 192, 195, 192, 231, 192, 126, 192, 60, 192, 10, 14, 28, 12, 0, 0, 192, 0, 192, 0,
    192, 0, 192, 0, 255, 0, 255, 128, 193, 192, 192, 192, 192, 192, 192, 192, 192, 192, 193, 192,
    255, 128, 255, 0, 10, 10, 20, 12, 0, 0, 63, 0, 127, 128, 225, 192, 192, 192, 192, 0, 192, 0,
    192, 0, 224, 0, 127, 192, 63, 192, 10, 14, 28, 12, 0, 0, 0, 192, 0, 192, 0, 192, 0, 192, 63,
    192, 127, 192, 224, 192, 192, 192, 192, 192, 192, 192, 192, 192, 224, 192, 127, 192, 63, 192,
    10, 10, 20, 12, 0, 0, 63, 0, 127, 128, 225, 192, 192, 192, 255, 192, 255, 192, 192, 0, 224, 0,
    127, 192, 63, 192, 8, 14, 14, 12, 2, 0, 15, 31, 56, 48, 252, 252, 48, 48, 48, 48, 48, 48, 48,
    48, 10, 14, 28, 12, 0, 252, 63, 192, 127, 192, 224, 192, 192, 192, 192, 192, 192, 192, 192, 192,
    224, 192, 127, 192, 63, 192, 0, 192, 1, 192, 63, 128, 63, 0, 10, 14, 28, 12, 0, 0, 192, 0, 192,
    0, 192, 0, 192, 0, 255, 0, 255, 128, 193, 192, 192, 192, 192, 192, 192, 192, 192, 192, 192, 192,
    192, 192, 192, 192, 6, 14, 14, 12, 2, 0, 48, 48, 0, 0, 240, 240, 48, 48, 48, 48, 48, 48, 252,
    252, 6, 18, 18, 12, 0, 252, 12, 12, 0, 0, 60, 60, 12, 12, 12, 12, 12, 12, 12, 12, 12, 28, 248,
    240, 10, 14, 28, 12, 0, 0, 192, 0, 192, 0, 192, 0, 192, 0, 195, 128, 199, 0, 206, 0, 220, 0,
    252, 0, 254, 0, 231, 0, 195, 128, 193, 192, 192, 192, 6, 14, 14, 12, 2, 0, 240, 240, 48, 48, 48,
    48, 48, 48, 48, 48, 48, 48, 252, 252, 10, 10, 20, 12, 0, 0, 255, 0, 255, 128, 205, 192, 204,
    192, 204, 192, 204, 192, 204, 192, 204, 192, 204, 192, 204, 192, 10, 10, 20, 12, 0, 0, 207, 0,
    223, 128, 249, 192, 240, 192, 224, 192, 192, 192, 192, 192, 192, 192, 192, 192, 192, 192, 10,
    10, 20, 12, 0, 0, 63, 0, 127, 128, 225, 192, 192, 192, 192, 192, 192, 192, 192, 192, 225, 192,
    127, 128, 63, 0, 10, 14, 28, 12, 0, 252, 255, 0, 255, 128, 193, 192, 192, 192, 192, 192, 192,
    192, 192, 192, 193, 192, 255, 128, 255, 0, 192, 0, 192, 0, 192, 0, 192, 0, 10, 14, 28, 12, 0,
    252, 63, 192, 127, 192, 224, 192, 192, 192, 192, 192, 192, 192, 192, 192, 224, 192, 127, 192,
    63, 192, 0, 192, 0, 192, 0, 192, 0, 192, 10, 10, 20, 12, 0, 0, 207, 0, 223, 128, 249, 192, 240,
    192, 224, 0, 192, 0, 192, 0, 192, 0, 192, 0, 192, 0, 10, 10, 20, 12, 0, 0, 63, 192, 127, 192,
    192, 0, 192, 0, 127, 0, 63, 128, 0, 192, 0, 192, 255, 128, 255, 0, 8, 14, 14, 12, 2, 0, 48, 48,
    48, 48, 252, 252, 48, 48, 48, 48, 48, 56, 31, 15, 10, 10, 20, 12, 0, 0, 192, 192, 192, 192, 192,
    192, 192, 192, 192, 192, 193, 192, 195, 192, 231, 192, 126, 192, 60, 192, 10, 10, 20, 12, 0, 0,
    192, 192, 192, 192, 192, 192, 97, 128, 97, 128, 51, 128, 51, 0, 30, 0, 30, 0, 12, 0, 10, 10, 20,
    12, 0, 0, 204, 192, 204, 192, 204, 192, 204, 192, 204, 192, 204, 192, 204, 192, 204, 192, 127,
    128, 51, 0, 10, 10, 20, 12, 0, 0, 192, 192, 225, 192, 115, 128, 63, 0, 30, 0, 30, 0, 63, 0, 115,
    128, 225, 192, 192, 192, 10, 14, 28, 12, 0, 252, 192, 192, 192, 192, 192, 192, 192, 192, 192,
    192, 192, 192, 192, 192, 224, 192, 127, 192, 63, 192, 0, 192, 1, 192, 63, 128, 63, 0, 10, 10,
    20, 12, 0, 0, 255, 192, 255, 192, 3, 128, 7, 0, 14, 0, 28, 0, 56, 0, 112, 0, 255, 192, 255, 192,
    6, 22, 22, 12, 2, 252, 12, 28, 56, 48, 48, 48, 48, 48, 48, 112, 224, 224, 112, 48, 48, 48, 48,
    48, 48, 56, 28, 12, 2, 18, 18, 12, 4, 254, 192, 192, 192, 192, 192, 192, 192, 192, 192, 192,
    192, 192, 192, 192, 192, 192, 192, 192, 6, 22, 22, 12, 2, 252, 192, 224, 112, 48, 48, 48, 48,
    48, 48, 56, 28, 28, 56, 48, 48, 48, 48, 48, 48, 112, 224, 192, 10, 4, 8, 12, 0, 6, 48, 192, 124,
    192, 207, 128, 195, 0, 0, 0, 0, 12, 0, 0]

/-- `u8g_unifont_upper`. -/
def u8gUnifontUpper : List UInt8 :=
  [0, 16, 16, 0, 254, 10, 6, 45, 0, 0, 10, 82, 0, 14, 254, 12, 255, 14, 12, 24, 16, 1, 0, 12, 0, 28,
    0, 28, 0, 120, 0, 219, 224, 255, 240, 255, 248, 127, 248, 127, 252, 63, 60, 62, 248, 49, 240,
    14, 12, 24, 16, 1, 0, 136, 0, 80, 0, 81, 224, 83, 240, 119, 240, 119, 240, 127, 240, 127, 224,
    127, 192, 127, 240, 127, 248, 63, 252, 14, 12, 24, 16, 1, 0, 120, 0, 220, 0, 252, 0, 124, 0, 28,
    0, 28, 16, 25, 152, 59, 204, 51, 236, 54, 108, 62, 124, 28, 56, 14, 10, 20, 16, 1, 0, 16, 0, 31,
    204, 63, 244, 111, 248, 255, 248, 255, 248, 127, 248, 31, 240, 20, 80, 20, 80, 14, 10, 20, 16,
    1, 0, 23, 128, 31, 204, 63, 244, 111, 248, 191, 248, 159, 248, 127, 248, 31, 240, 20, 80, 20,
    80, 16, 12, 24, 16, 0, 0, 30, 0, 61, 240, 110, 252, 127, 126, 250, 254, 237, 255, 159, 255, 255,
    253, 159, 252, 91, 108, 27, 108, 27, 108, 15, 12, 24, 16, 0, 0, 3, 128, 7, 192, 7, 192, 53, 88,
    39, 200, 19, 144, 143, 226, 127, 252, 11, 160, 82, 148, 106, 172, 12, 96, 14, 12, 24, 16, 1, 0,
    7, 128, 24, 96, 32, 16, 64, 8, 67, 136, 132, 68, 136, 36, 137, 36, 136, 196, 132, 8, 134, 16,
    121, 224, 8, 14, 14, 16, 4, 255, 36, 153, 126, 60, 255, 60, 255, 60, 255, 60, 255, 60, 255, 24,
    13, 14, 28, 16, 1, 255, 5, 0, 8, 128, 15, 128, 15, 128, 231, 56, 31, 192, 15, 128, 55, 96, 207,
    152, 15, 128, 55, 96, 207, 152, 15, 128, 7, 0, 16, 14, 28, 16, 0, 255, 4, 32, 2, 64, 19, 200,
    19, 200, 9, 144, 255, 255, 131, 193, 79, 242, 50, 76, 79, 242, 20, 40, 23, 232, 36, 36, 3, 192,
    16, 12, 24, 16, 0, 0, 2, 64, 7, 224, 13, 176, 31, 248, 223, 251, 35, 196, 104, 22, 162, 69, 40,
    20, 81, 138, 140, 49, 3, 192, 14, 10, 20, 16, 1, 0, 2, 0, 6, 0, 63, 4, 127, 204, 223, 252, 255,
    252, 63, 228, 127, 64, 14, 0, 2, 0, 12, 12, 24, 16, 2, 0, 3, 0, 14, 0, 30, 0, 62, 48, 127, 96,
    223, 224, 255, 224, 127, 48, 62, 0, 14, 0, 6, 0, 3, 0, 14, 12, 24, 16, 1, 0, 2, 0, 31, 128, 63,
    192, 127, 224, 239, 236, 255, 248, 127, 248, 255, 236, 255, 224, 127, 192, 31, 128, 4, 0, 14, 7,
    14, 16, 1, 0, 3, 192, 7, 224, 111, 240, 191, 248, 255, 248, 31, 252, 10, 80, 10, 12, 24, 16, 3,
    0, 12, 0, 22, 0, 62, 0, 30, 0, 30, 0, 51, 0, 97, 128, 225, 192, 225, 192, 179, 64, 30, 0, 51, 0,
    14, 12, 24, 16, 1, 0, 96, 0, 161, 128, 227, 192, 111, 240, 127, 248, 127, 248, 63, 252, 31, 244,
    10, 80, 10, 80, 10, 80, 10, 80, 14, 12, 24, 16, 1, 0, 96, 0, 166, 96, 239, 240, 111, 240, 127,
    248, 127, 248, 63, 252, 31, 244, 10, 80, 10, 80, 10, 80, 10, 80, 14, 11, 22, 16, 1, 0, 3, 128,
    15, 0, 63, 0, 95, 128, 127, 192, 255, 224, 13, 224, 4, 120, 0, 60, 51, 48, 204, 164, 15, 13, 26,
    16, 1, 255, 34, 0, 85, 0, 8, 0, 136, 128, 0, 0, 30, 34, 63, 54, 127, 190, 111, 156, 127, 252,
    127, 248, 204, 204, 51, 48, 14, 12, 24, 16, 1, 0, 3, 0, 12, 192, 16, 32, 32, 16, 64, 8, 140,
    196, 156, 228, 152, 100, 128, 4, 64, 8, 48, 48, 15, 192, 15, 10, 20, 16, 0, 2, 20, 0, 64, 0, 28,
    0, 190, 0, 62, 80, 24, 4, 0, 112, 0, 250, 0, 248, 0, 48, 15, 8, 16, 16, 0, 0, 56, 56, 68, 68,
    130, 130, 178, 178, 178, 178, 130, 130, 68, 68, 56, 56, 15, 9, 18, 16, 0, 2, 7, 192, 24, 48, 35,
    136, 71, 196, 135, 194, 71, 196, 35, 136, 24, 48, 7, 192, 13, 8, 16, 16, 1, 2, 136, 136, 221,
    216, 221, 216, 255, 248, 255, 248, 255, 248, 255, 248, 63, 224, 14, 10, 20, 16, 1, 2, 28, 224,
    36, 144, 64, 8, 128, 4, 252, 252, 131, 4, 131, 4, 132, 132, 132, 132, 120, 120, 13, 12, 24, 16,
    1, 0, 24, 192, 104, 176, 135, 8, 5, 0, 5, 0, 5, 0, 8, 128, 8, 128, 8, 128, 8, 128, 5, 0, 2, 0,
    16, 11, 22, 16, 0, 0, 28, 56, 35, 196, 64, 2, 128, 1, 88, 26, 40, 20, 8, 16, 8, 16, 8, 16, 8,
    16, 15, 240, 9, 12, 24, 16, 3, 0, 255, 128, 221, 128, 128, 128, 136, 128, 148, 128, 148, 128,
    148, 128, 148, 128, 148, 128, 148, 128, 148, 128, 247, 128, 13, 13, 26, 16, 1, 255, 56, 224, 71,
    16, 128, 8, 112, 112, 16, 64, 24, 192, 23, 64, 18, 64, 21, 64, 37, 32, 32, 32, 48, 96, 15, 128,
    14, 13, 26, 16, 1, 0, 60, 240, 67, 8, 154, 100, 175, 212, 111, 216, 10, 64, 10, 64, 10, 64, 10,
    64, 10, 64, 10, 64, 10, 64, 7, 128, 10, 12, 24, 16, 3, 0, 12, 0, 30, 0, 63, 0, 30, 0, 63, 0,
    127, 128, 30, 0, 63, 0, 127, 128, 255, 192, 12, 0, 12, 0, 10, 12, 24, 16, 3, 0, 62, 0, 127, 128,
    127, 192, 255, 192, 255, 192, 255, 128, 127, 128, 63, 0, 12, 0, 12, 0, 12, 0, 12, 0, 14, 13, 26,
    16, 1, 0, 0, 192, 121, 0, 133, 112, 59, 136, 79, 228, 147, 16, 33, 136, 33, 136, 1, 128, 1, 128,
    3, 0, 3, 0, 3, 0, 10, 11, 22, 16, 3, 0, 12, 0, 30, 0, 30, 0, 222, 0, 222, 192, 222, 192, 254,
    192, 127, 192, 31, 128, 30, 0, 30, 0, 9, 10, 20, 16, 3, 0, 42, 0, 62, 0, 62, 0, 28, 0, 8, 0, 8,
    0, 201, 128, 107, 0, 62, 0, 28, 0, 11, 11, 22, 16, 2, 0, 10, 0, 31, 0, 31, 0, 110, 192, 245,
    224, 123, 192, 245, 224, 110, 192, 31, 0, 31, 0, 10, 0, 13, 12, 24, 16, 1, 0, 2, 0, 7, 0, 71,
    16, 119, 112, 127, 240, 255, 248, 127, 240, 63, 224, 31, 192, 63, 224, 2, 0, 2, 0, 12, 10, 20,
    16, 2, 0, 31, 128, 118, 224, 221, 176, 255, 240, 6, 0, 15, 0, 15, 0, 31, 128, 31, 128, 15, 0,
    14, 9, 18, 16, 1, 2, 0, 120, 7, 132, 120, 20, 192, 68, 210, 4, 192, 36, 226, 136, 120, 48, 31,
    192, 12, 14, 28, 16, 2, 255, 6, 0, 9, 0, 50, 192, 65, 96, 66, 160, 129, 80, 128, 176, 129, 80,
    128, 176, 65, 96, 66, 160, 49, 64, 11, 128, 6, 0, 13, 12, 24, 16, 1, 0, 31, 192, 96, 48, 146,
    72, 128, 8, 127, 240, 85, 80, 255, 248, 255, 248, 127, 240, 128, 8, 128, 8, 127, 240, 13, 13,
    26, 16, 1, 0, 7, 0, 29, 192, 37, 32, 37, 32, 69, 16, 127, 240, 112, 112, 229, 56, 224, 56, 117,
    112, 114, 112, 56, 224, 7, 0, 15, 14, 28, 16, 0, 255, 5, 64, 7, 192, 7, 192, 31, 240, 63, 248,
    62, 120, 56, 56, 114, 156, 112, 28, 58, 184, 57, 56, 252, 126, 243, 158, 96, 12, 14, 14, 28, 16,
    1, 255, 7, 128, 31, 224, 63, 240, 103, 152, 67, 8, 91, 104, 219, 108, 231, 156, 255, 252, 255,
    252, 255, 252, 255, 252, 247, 188, 99, 24, 10, 12, 24, 16, 3, 0, 63, 0, 127, 128, 255, 192, 255,
    192, 255, 192, 222, 192, 204, 192, 109, 128, 127, 128, 63, 0, 30, 0, 12, 0, 14, 14, 28, 16, 1,
    255, 7, 128, 31, 224, 31, 224, 63, 240, 47, 208, 55, 176, 63, 240, 63, 240, 111, 216, 95, 232,
    219, 108, 147, 36, 82, 40, 9, 64, 5, 12, 12, 16, 5, 0, 16, 48, 112, 112, 248, 136, 136, 136,
    136, 136, 136, 248, 8, 16, 16, 16, 4, 254, 60, 126, 126, 255, 78, 90, 114, 102, 78, 90, 114,
    102, 255, 126, 126, 60, 7, 14, 14, 16, 4, 255, 16, 16, 16, 56, 68, 100, 68, 100, 68, 100, 68,
    254, 16, 56, 5, 12, 12, 16, 5, 0, 112, 248, 248, 248, 248, 248, 136, 136, 136, 136, 136, 112,
    15, 12, 24, 16, 0, 0, 255, 254, 128, 2, 194, 134, 167, 202, 147, 146, 137, 34, 132, 66, 138,
    162, 145, 18, 160, 10, 192, 6, 255, 254, 14, 13, 26, 16, 1, 0, 12, 192, 31, 224, 31, 224, 31,
    224, 15, 192, 7, 128, 123, 120, 252, 252, 180, 180, 252, 252, 180, 180, 204, 204, 120, 120, 16,
    14, 28, 16, 0, 255, 32, 4, 64, 2, 144, 9, 36, 36, 14, 112, 31, 248, 31, 248, 31, 248, 15, 240,
    7, 224, 19, 200, 73, 146, 32, 4, 16, 8, 14, 10, 20, 16, 1, 0, 120, 120, 252, 252, 254, 252, 254,
    252, 125, 248, 61, 240, 30, 224, 14, 192, 5, 128, 1, 0, 12, 12, 24, 16, 2, 0, 3, 96, 7, 240, 7,
    240, 3, 224, 1, 192, 0, 128, 108, 0, 254, 0, 254, 0, 124, 0, 56, 0, 16, 0, 13, 10, 20, 16, 1, 0,
    120, 240, 253, 184, 239, 24, 199, 184, 110, 240, 60, 96, 30, 192, 15, 128, 7, 0, 2, 0, 13, 10,
    20, 16, 1, 0, 56, 224, 69, 16, 154, 200, 189, 232, 95, 208, 47, 160, 23, 64, 10, 128, 5, 0, 2,
    0, 15, 12, 24, 16, 0, 0, 64, 0, 224, 0, 110, 56, 17, 68, 40, 130, 36, 2, 16, 4, 8, 8, 4, 16, 2,
    32, 1, 64, 0, 128, 13, 10, 20, 16, 1, 0, 56, 224, 69, 16, 255, 248, 128, 8, 127, 240, 32, 32,
    31, 192, 8, 128, 7, 0, 2, 0, 13, 10, 20, 16, 1, 0, 56, 224, 109, 176, 182, 216, 219, 104, 109,
    176, 54, 224, 27, 64, 13, 128, 7, 0, 2, 0, 13, 10, 20, 16, 1, 0, 56, 224, 69, 16, 170, 168, 128,
    8, 85, 80, 32, 32, 21, 64, 8, 128, 5, 0, 2, 0, 13, 10, 20, 16, 1, 0, 56, 224, 109, 176, 219,
    104, 182, 216, 109, 176, 59, 96, 22, 192, 13, 128, 7, 0, 2, 0, 14, 11, 22, 16, 1, 0, 0, 96, 56,
    144, 125, 24, 255, 4, 255, 196, 127, 200, 63, 240, 31, 192, 15, 128, 7, 0, 2, 0, 15, 14, 28, 16,
    0, 255, 5, 0, 15, 176, 39, 0, 34, 20, 80, 62, 248, 28, 112, 8, 32, 4, 64, 0, 64, 20, 42, 62, 31,
    28, 14, 40, 4, 192, 14, 14, 28, 16, 1, 255, 16, 32, 63, 240, 64, 8, 192, 12, 76, 200, 95, 232,
    95, 232, 95, 232, 79, 200, 71, 136, 195, 12, 64, 8, 63, 240, 16, 32, 12, 12, 24, 16, 2, 0, 6, 0,
    9, 0, 48, 192, 48, 192, 64, 32, 134, 16, 134, 16, 64, 32, 48, 192, 48, 192, 9, 0, 6, 0, 16, 13,
    26, 16, 0, 0, 64, 2, 35, 196, 4, 32, 8, 16, 200, 19, 8, 16, 8, 16, 36, 36, 66, 66, 3, 192, 2,
    192, 3, 64, 1, 128, 12, 12, 24, 16, 2, 0, 16, 128, 25, 128, 15, 0, 198, 48, 96, 96, 48, 192, 48,
    192, 96, 96, 198, 48, 15, 0, 25, 128, 16, 128, 12, 12, 24, 16, 2, 0, 0, 64, 0, 16, 6, 192, 9,
    16, 60, 64, 126, 0, 255, 0, 255, 0, 255, 0, 255, 0, 126, 0, 60, 0, 14, 7, 14, 16, 1, 2, 247,
    188, 247, 188, 49, 140, 99, 24, 198, 48, 247, 188, 247, 188, 16, 15, 30, 16, 0, 255, 0, 128, 97,
    134, 90, 90, 38, 100, 32, 4, 16, 8, 48, 12, 192, 3, 48, 12, 16, 8, 32, 4, 38, 100, 90, 90, 97,
    134, 1, 0]

/-- `u8g_font_freedoomr10r`. -/
def u8gFontFreedoomr10r : List UInt8 :=
  [0, 7, 12, 0, 0, 10, 1, 113, 3, 88, 32, 127, 1, 12, 0, 12, 0, 0, 0, 0, 7, 0, 1, 0, 0, 0, 7, 0, 1,
    0, 0, 0, 7, 0, 1, 0, 0, 0, 7, 0, 1, 0, 0, 0, 7, 0, 1, 0, 0, 0, 7, 0, 1, 0, 0, 0, 7, 0, 1, 0, 0,
    0, 7, 0, 1, 3, 10, 10, 7, 0, 2, 96, 128, 128, 128, 128, 128, 128, 128, 128, 96, 3, 10, 10, 7, 3,
    2, 192, 32, 32, 32, 32, 32, 32, 32, 32, 192, 5, 5, 5, 8, 1, 7, 168, 112, 32, 112, 168, 7, 7, 7,
    8, 0, 4, 16, 16, 16, 254, 16, 16, 16, 2, 2, 2, 7, 2, 10, 64, 128, 7, 1, 1, 8, 0, 7, 254, 2, 2,
    2, 7, 2, 2, 192, 192, 7, 10, 10, 8, 0, 2, 2, 4, 4, 8, 16, 16, 32, 64, 64, 128, 6, 10, 10, 7, 0,
    2, 252, 132, 132, 132, 132, 132, 132, 132, 132, 252, 2, 10, 10, 7, 4, 2, 192, 64, 64, 64, 64,
    64, 64, 64, 64, 64, 6, 10, 10, 7, 0, 2, 252, 4, 4, 4, 4, 252, 128, 128, 128, 252, 6, 10, 10, 7,
    0, 2, 252, 4, 4, 4, 60, 4, 4, 4, 4, 252, 6, 10, 10, 7, 0, 2, 132, 132, 132, 132, 132, 252, 4, 4,
    4, 4, 6, 10, 10, 7, 0, 2, 252, 128, 128, 128, 252, 4, 4, 4, 4, 252, 6, 10, 10, 7, 0, 2, 252,
    128, 128, 128, 252, 132, 132, 132, 132, 252, 6, 10, 10, 7, 0, 2, 252, 4, 4, 4, 4, 4, 4, 4, 4, 4,
    6, 10, 10, 7, 0, 2, 252, 132, 132, 132, 252, 132, 132, 132, 132, 252, 6, 10, 10, 7, 0, 2, 252,
    132, 132, 132, 252, 4, 4, 4, 4, 252, 2, 7, 7, 7, 2, 2, 192, 192, 0, 0, 0, 192, 192, 0, 0, 0, 7,
    0, 1, 0, 0, 0, 7, 0, 1, 0, 0, 0, 7, 0, 1, 0, 0, 0, 7, 0, 1, 0, 0, 0, 7, 0, 1, 0, 0, 0, 7, 0, 1,
    7, 10, 10, 8, 0, 2, 254, 130, 130, 130, 130, 254, 130, 130, 130, 130, 7, 10, 10, 8, 0, 2, 254,
    130, 130, 130, 252, 130, 130, 130, 130, 254, 7, 10, 10, 8, 0, 2, 254, 128, 128, 128, 128, 128,
    128, 128, 128, 254, 7, 10, 10, 8, 0, 2, 252, 130, 130, 130, 130, 130, 130, 130, 130, 252, 7, 10,
    10, 8, 0, 2, 254, 128, 128, 128, 248, 128, 128, 128, 128, 254, 7, 10, 10, 8, 0, 2, 254, 128,
    128, 128, 248, 128, 128, 128, 128, 128, 7, 10, 10, 8, 0, 2, 254, 128, 128, 128, 158, 130, 130,
    130, 130, 254, 7, 10, 10, 8, 0, 2, 130, 130, 130, 130, 254, 130, 130, 130, 130, 130, 1, 10, 10,
    8, 3, 2, 128, 128, 128, 128, 128, 128, 128, 128, 128, 128, 7, 10, 10, 8, 0, 2, 30, 2, 2, 2, 2,
    2, 130, 130, 130, 124, 7, 10, 10, 8, 0, 2, 130, 132, 136, 144, 224, 160, 144, 136, 132, 130, 7,
    10, 10, 8, 0, 2, 128, 128, 128, 128, 128, 128, 128, 128, 128, 254, 7, 10, 10, 8, 0, 2, 130, 198,
    170, 146, 130, 130, 130, 130, 130, 130, 7, 10, 10, 8, 0, 2, 194, 194, 162, 162, 146, 146, 138,
    138, 134, 134, 7, 10, 10, 8, 0, 2, 124, 130, 130, 130, 130, 130, 130, 130, 130, 124, 7, 10, 10,
    8, 0, 2, 254, 130, 130, 130, 254, 128, 128, 128, 128, 128, 7, 10, 10, 8, 0, 2, 120, 132, 132,
    132, 132, 132, 132, 132, 132, 126, 7, 10, 10, 8, 0, 2, 254, 130, 130, 130, 254, 160, 144, 136,
    132, 130, 7, 10, 10, 8, 0, 2, 254, 128, 128, 128, 128, 254, 2, 2, 2, 254, 7, 9, 9, 8, 0, 3, 254,
    16, 16, 16, 16, 16, 16, 16, 16, 7, 10, 10, 8, 0, 2, 130, 130, 130, 130, 130, 130, 130, 130, 130,
    254, 7, 10, 10, 8, 0, 2, 130, 130, 130, 68, 68, 108, 40, 40, 16, 16, 7, 10, 10, 8, 0, 2, 130,
    130, 130, 130, 130, 146, 146, 170, 170, 198, 7, 10, 10, 8, 0, 2, 130, 68, 68, 40, 16, 16, 40,
    68, 68, 130, 7, 10, 10, 8, 0, 2, 130, 130, 130, 130, 254, 16, 16, 16, 16, 16, 7, 10, 10, 8, 0,
    2, 254, 2, 6, 12, 24, 48, 96, 192, 128, 254, 4, 10, 10, 7, 0, 2, 240, 128, 128, 128, 128, 128,
    128, 128, 128, 240, 6, 10, 10, 7, 0, 2, 128, 64, 64, 32, 32, 16, 16, 8, 8, 4, 4, 10, 10, 7, 2,
    2, 240, 16, 16, 16, 16, 16, 16, 16, 16, 240, 5, 3, 3, 7, 1, 9, 32, 80, 136, 6, 1, 1, 7, 0, 2,
    252, 2, 2, 2, 7, 2, 10, 128, 64, 0, 0, 0, 7, 0, 1, 0, 0, 0, 7, 0, 1, 0, 0, 0, 7, 0, 1, 0, 0, 0,
    7, 0, 1, 0, 0, 0, 7, 0, 1, 0, 0, 0, 7, 0, 1, 0, 0, 0, 7, 0, 1, 0, 0, 0, 7, 0, 1, 0, 0, 0, 7, 0,
    1, 0, 0, 0, 7, 0, 1, 0, 0, 0, 7, 0, 1, 0, 0, 0, 7, 0, 1, 0, 0, 0, 7, 0, 1, 0, 0, 0, 7, 0, 1, 0,
    0, 0, 7, 0, 1, 0, 0, 0, 7, 0, 1, 0, 0, 0, 7, 0, 1, 0, 0, 0, 7, 0, 1, 0, 0, 0, 7, 0, 1, 0, 0, 0,
    7, 0, 1, 0, 0, 0, 7, 0, 1, 0, 0, 0, 7, 0, 1, 0, 0, 0, 7, 0, 1, 0, 0, 0, 7, 0, 1, 0, 0, 0, 7, 0,
    1, 0, 0, 0, 7, 0, 1, 0, 0, 0, 7, 0, 1, 0, 0, 0, 7, 0, 1, 0, 0, 0, 7, 0, 1, 0, 0, 0, 7, 0, 1, 0,
    0, 0, 7, 0, 1]

end Muchiwachi
