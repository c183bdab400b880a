import Muchiwachi.Lib.MemoryLcd
import Mathlib.Tactic.IntervalCases

/-!
# The display driver (`u8g_dev_ls010b7dh01.c`, `u8g_page.c`, `u8g_pb.c`, `u8g_ll_api.c`)

A picture is drawn page by page into the 128-byte page buffer; at the end of each page the driver
sends the buffer to the panel. `Lcd` holds the statics of the driver and the trace of what it did
on the bus and when it called the drawing callback.

`decode_pictureLoop` says what one picture loop puts on the wire.
-/

namespace Muchiwachi

open Lib.MemoryLcd

/-! ## Pages and the page buffer -/

def rowsPerPage : UInt8 := 8
def ls010b7dh01Rows : UInt8 := 128
def ls010b7dh01Columns : UInt8 := 128
/-- `LS010B7DH01_BYTES_PER_LINE`. -/
def bytesPerLine : Nat := 16

/-- `u8g_page_t`; `u8g_uint_t` has 8 bits. -/
structure U8gPage where
  pageHeight : UInt8
  totalHeight : UInt8
  pageY0 : UInt8
  pageY1 : UInt8
  page : UInt8
  deriving DecidableEq, Repr

def u8gPageFirst (p : U8gPage) : U8gPage :=
  { p with pageY0 := 0, pageY1 := p.pageHeight - 1, page := 0 }

/-- `u8g_page_Next`: whether there is a next page, and the page after the call. -/
def u8gPageNext (p : U8gPage) : UInt8 × U8gPage :=
  let p := { p with pageY0 := p.pageY0 + p.pageHeight }
  if p.pageY0 ≥ p.totalHeight then (0, p)
  else
    let y1 := p.pageY1 + p.pageHeight
    (1, { p with
      page := p.page + 1
      pageY1 := if y1 ≥ p.totalHeight then p.totalHeight - 1 else y1 })

/-- `cgram_`. -/
abbrev Cgram := Vector UInt8 128

/-- `u8g_pb_t` with the buffer it points to. -/
structure U8gPb where
  p : U8gPage
  width : UInt8
  buf : Cgram
  deriving DecidableEq, Repr

/-- `u8g_pb_Clear`: zeroes at the first `width` places, which are at least one. -/
def u8gPbClear (b : U8gPb) : U8gPb :=
  { b with buf := (List.range b.width.toNat).foldl (fun buf i => buf.setIfInBounds i 0) b.buf }

/-- The dimensions `pb` is initialised with, which nothing changes. -/
structure U8gPb.Dims (b : U8gPb) : Prop where
  pageHeight : b.p.pageHeight = rowsPerPage
  totalHeight : b.p.totalHeight = ls010b7dh01Rows
  width : b.width = ls010b7dh01Columns

theorem U8gPb.Dims.clear {b : U8gPb} (h : b.Dims) : (u8gPbClear b).Dims := ⟨h.1, h.2, h.3⟩

theorem U8gPb.Dims.first {b : U8gPb} (h : b.Dims) : { b with p := u8gPageFirst b.p }.Dims :=
  ⟨h.1, h.2, h.3⟩

theorem U8gPb.Dims.next {b : U8gPb} (h : b.Dims) : { b with p := (u8gPageNext b.p).2 }.Dims := by
  unfold u8gPageNext
  simp only
  split <;> exact ⟨h.1, h.2, h.3⟩

/-! ## The driver -/

/-- What happens on the bus, and the calls of the drawing callback with the buffer they find. -/
inductive LcdEvent where
  | csAssert | csDeassert
  | writeBuf (buf : List UInt8)
  | draw (pb : U8gPb)
  deriving DecidableEq, Repr

/-- The statics of the driver, and what it has done. -/
structure Lcd where
  pb : U8gPb
  dims : pb.Dims
  /-- The local static of `update_lines`. -/
  comin : UInt8
  trace : List LcdEvent

def Lcd.emit (evs : List LcdEvent) (d : Lcd) : Lcd := { d with trace := d.trace ++ evs }

def reverseBits (i : UInt8) : UInt8 :=
  let rv := i
  let rv := ((rv &&& 0xaa) >>> 1) ||| ((rv &&& 0x55) <<< 1)
  let rv := ((rv &&& 0xcc) >>> 2) ||| ((rv &&& 0x33) <<< 2)
  ((rv &&& 0xf0) >>> 4) ||| ((rv &&& 0x0f) <<< 4)

/-- The `while` of `update_lines`, from `line` on with `dp` and `cmd[0]` as they are then: what
it sends, and the `cmd[0]` it leaves. -/
def sendLines (endLine line : Int) (dp : List UInt8) (cmd0 : UInt8) : List LcdEvent × UInt8 :=
  if line < endLine then
    let r := sendLines endLine (line + 1) (dp.drop bytesPerLine) 0
    (.writeBuf [cmd0, reverseBits (.ofInt line)] :: .writeBuf (dp.take bytesPerLine) :: r.1, r.2)
  else ([], cmd0)
termination_by (endLine - line).toNat

/-- `update_lines`; a negative `numLines` stands for all lines from `startLine` on. -/
def updateLines (startLine numLines : Int) (lineData : List UInt8) (d : Lcd) : Int × Lcd :=
  if startLine < 1 then (-1, d)
  else
    let endLine :=
      if 0 > numLines then (ls010b7dh01Rows.toNat : Int) + 1 - startLine else startLine + numLines
    let cmd0 : UInt8 := if d.comin ≠ 0 then 0x80 ||| 0x40 else 0x80
    let d := { d with comin := if d.comin ≠ 0 then 0 else 1 }
    let r := sendLines endLine startLine lineData cmd0
    (0, d.emit (.csAssert :: (r.1 ++ [.writeBuf [r.2, 0], .csDeassert])))

/-- The messages `u8g_com_fn` acts on; on the others it does nothing. -/
inductive ComMsg where
  | init | writeSeq | other
  deriving DecidableEq, Repr

def u8gComFn (msg : ComMsg) (d : Lcd) : UInt8 × Lcd :=
  match msg with
  | .init => (0, d)
  | .writeSeq =>
    let p := d.pb.p
    let startLine : Int := 1 + p.pageY0.toNat
    let numLines : Int := (p.pageY1.toNat - p.pageY0.toNat) + 1
    let r := updateLines startLine numLines d.pb.buf.toList d
    (if r.1 = 0 then 1 else 0, r.2)
  | .other => (0, d)

/-- `u8g_pb_WriteBuffer`. -/
def u8gPbWriteBuffer (d : Lcd) : UInt8 × Lcd := u8gComFn .writeSeq d

/-- The messages of the set-up and of a picture loop. -/
inductive DevMsg where
  | init | pageFirst | pageNext
  deriving DecidableEq, Repr

def u8gDevPb8h1BaseFn (msg : DevMsg) (d : Lcd) : UInt8 × Lcd :=
  match msg with
  | .init => (1, d)
  | .pageFirst =>
    let b := u8gPbClear d.pb
    (1, { d with pb := { b with p := u8gPageFirst b.p }, dims := d.dims.clear.first })
  | .pageNext =>
    let r := u8gPageNext d.pb.p
    let b := { d.pb with p := r.2 }
    if r.1 = 0 then (0, { d with pb := b, dims := d.dims.next })
    else (1, { d with pb := u8gPbClear b, dims := d.dims.next.clear })

def u8gDevFn (msg : DevMsg) (d : Lcd) : UInt8 × Lcd :=
  match msg with
  | .init =>
    (0, { d with
      pb := { d.pb with buf := .replicate _ 0 }
      dims := ⟨d.dims.1, d.dims.2, d.dims.3⟩ })
  | .pageNext =>
    let r := u8gPbWriteBuffer d
    if r.1 ≠ 0 then u8gDevPb8h1BaseFn .pageNext r.2 else r
  | .pageFirst => u8gDevPb8h1BaseFn .pageFirst d

/-! ## The picture loop -/

/-- `u8g_FirstPage`, but for the page box it reads for the callback. -/
def u8gFirstPage (d : Lcd) : Lcd := (u8gDevFn .pageFirst d).2

/-- `u8g_NextPage`, but for the page box. No cursor is set. -/
def u8gNextPage (d : Lcd) : UInt8 × Lcd := u8gDevFn .pageNext d

/-- A call of the drawing callback: `draw` gives what it leaves in the buffer. -/
def drawPage (draw : U8gPb → Cgram) (d : Lcd) : Lcd :=
  { d with
    pb := { d.pb with buf := draw d.pb }
    dims := ⟨d.dims.1, d.dims.2, d.dims.3⟩
    trace := d.trace ++ [.draw d.pb] }

/-- The `do` of `picture_loop`, at most `fuel` times. -/
def picturePages (draw : U8gPb → Cgram) : Nat → Lcd → Option Lcd
  | 0, _ => none
  | fuel + 1, d =>
    let r := u8gNextPage (drawPage draw d)
    if r.1 ≠ 0 then picturePages draw fuel r.2 else some r.2

/-- `picture_loop`. -/
def pictureLoop (draw : U8gPb → Cgram) (fuel : Nat) (d : Lcd) : Option Lcd :=
  picturePages draw fuel (u8gFirstPage d)

/-! ## One transfer -/

/-- What an event does on the bus. -/
def LcdEvent.wireOp : LcdEvent → Option WireOp
  | .csAssert => some .select
  | .csDeassert => some .deselect
  | .writeBuf buf => some (.send buf)
  | .draw _ => none

/-- The bus side of a trace. -/
def wire (evs : List LcdEvent) : List WireOp := evs.filterMap LcdEvent.wireOp

/-- The page buffers a trace calls the drawing callback with. -/
def drawn (evs : List LcdEvent) : List U8gPb :=
  evs.filterMap fun | .draw pb => some pb | _ => none

/-- The three exchanges reverse the bits. -/
theorem reverseBits_eq (i : UInt8) : reverseBits i = reversed i := by
  have hall : ∀ v : BitVec 8, reverseBits ⟨v⟩ = reversed ⟨v⟩ := by decide +kernel
  exact hall i.toBitVec

/-- The `n` lines from `line` on with the bytes from `dp` on. -/
def linesFrom (line : Int) (dp : List UInt8) (n : Nat) : List (UInt8 × List UInt8) :=
  (List.range n).map fun (j : Nat) =>
    (.ofInt (line + j), (dp.drop (bytesPerLine * j)).take bytesPerLine)

theorem linesFrom_succ (line : Int) (dp : List UInt8) (n : Nat) :
    linesFrom line dp (n + 1) = (.ofInt line, dp.take bytesPerLine) ::
      linesFrom (line + 1) (dp.drop bytesPerLine) n := by
  unfold linesFrom
  rw [List.range_succ_eq_map, List.map_cons, List.map_map]
  congr 1
  · simp
  · refine List.map_congr_left fun j _ => ?_
    have hline : line + ((j + 1 : Nat) : Int) = line + 1 + j := by omega
    have hdrop : bytesPerLine * (j + 1) = bytesPerLine + bytesPerLine * j := by
      rw [Nat.mul_succ, Nat.add_comm]
    simp only [Function.comp_apply, Nat.succ_eq_add_one, hline, hdrop, List.drop_drop]

/-- `sendLines` only writes, and with the last two bytes of the transfer these are the encoded
lines. -/
theorem sendLines_eq (endLine line : Int) (dp : List UInt8) (cmd0 : UInt8) :
    ∃ bufs : List (List UInt8), (sendLines endLine line dp cmd0).1 = bufs.map .writeBuf ∧
      bufs.flatten ++ [(sendLines endLine line dp cmd0).2, 0] =
        encodeTransfer cmd0 (linesFrom line dp (endLine - line).toNat) := by
  fun_induction sendLines endLine line dp cmd0 with
  | case1 line dp cmd0 hlt r ih =>
    obtain ⟨bufs, hbufs, hbytes⟩ := ih
    have hn : (endLine - line).toNat = (endLine - (line + 1)).toNat + 1 := by omega
    refine ⟨[cmd0, reverseBits (.ofInt line)] :: dp.take bytesPerLine :: bufs, ?_, ?_⟩
    · rw [hbufs]
      rfl
    · rw [hn, linesFrom_succ, reverseBits_eq]
      simp only [encodeTransfer, List.flatMap_cons, encodeLine] at hbytes ⊢
      simpa [r] using hbytes
  | case2 line dp cmd0 hge =>
    have hn : (endLine - line).toNat = 0 := by omega
    refine ⟨[], rfl, ?_⟩
    rw [hn]
    rfl

theorem mem_linesFrom_length {line : Int} {dp : List UInt8} {n : Nat}
    (h : bytesPerLine * n ≤ dp.length) : ∀ l ∈ linesFrom line dp n, l.2.length = bytesPerLine := by
  intro l hl
  obtain ⟨j, hj, rfl⟩ := List.mem_map.mp hl
  have hroom : bytesPerLine * (j + 1) ≤ bytesPerLine * n :=
    Nat.mul_le_mul_left _ (List.mem_range.mp hj)
  rw [Nat.mul_succ] at hroom
  simp only [List.length_take, List.length_drop]
  omega

/-- The lines a call of `update_lines` covers. -/
def lineCount (startLine numLines : Int) : Nat :=
  ((if 0 > numLines then (ls010b7dh01Rows.toNat : Int) + 1 - startLine
    else startLine + numLines) - startLine).toNat

/-- The events of one transfer. -/
def transferEvents (bufs : List (List UInt8)) : List LcdEvent :=
  .csAssert :: (bufs.map .writeBuf ++ [.csDeassert])

theorem wire_transferEvents (bufs : List (List UInt8)) (evs : List LcdEvent) :
    wire (transferEvents bufs ++ evs) = transfer bufs ++ wire evs := by
  have hsends : (bufs.map LcdEvent.writeBuf).filterMap LcdEvent.wireOp = bufs.map .send := by
    rw [List.filterMap_map]
    exact congrFun (List.filterMap_eq_map (f := WireOp.send)) bufs
  simp [wire, transferEvents, transfer, List.filterMap_append, hsends, LcdEvent.wireOp]

theorem wire_page (pb : U8gPb) (bufs : List (List UInt8)) (evs : List LcdEvent) :
    wire (.draw pb :: transferEvents bufs ++ evs) = transfer bufs ++ wire evs :=
  wire_transferEvents bufs evs

theorem drawn_page (pb : U8gPb) (bufs : List (List UInt8)) (evs : List LcdEvent) :
    drawn (.draw pb :: transferEvents bufs ++ evs) = pb :: drawn evs := by
  simp [drawn, transferEvents, List.filterMap_append]

/-- What `update_lines` does when it does not fail: one transfer. -/
theorem updateLines_eq {startLine : Int} (hstart : 1 ≤ startLine) (numLines : Int)
    (lineData : List UInt8) (d : Lcd) :
    ∃ (d' : Lcd) (mode : UInt8) (bufs : List (List UInt8)),
      updateLines startLine numLines lineData d = (0, d') ∧ d'.pb = d.pb ∧
      d'.trace = d.trace ++ transferEvents bufs ∧
      IsMode mode ∧ bufs.flatten =
        encodeTransfer mode (linesFrom startLine lineData (lineCount startLine numLines)) := by
  have hmode : IsMode (if d.comin ≠ 0 then 0x80 ||| 0x40 else 0x80) := by
    split
    · exact .inr rfl
    · exact .inl rfl
  unfold updateLines lineCount
  rw [if_neg (by omega)]
  simp only
  generalize (if d.comin ≠ 0 then 0x80 ||| 0x40 else 0x80 : UInt8) = cmd0 at hmode ⊢
  generalize (if 0 > numLines then _ else _ : Int) = endLine
  obtain ⟨bufs, hbufs, hbytes⟩ := sendLines_eq endLine startLine lineData cmd0
  refine ⟨_, cmd0, bufs ++ [[(sendLines endLine startLine lineData cmd0).2, 0]], rfl, rfl, ?_,
    hmode, ?_⟩
  · simp [Lcd.emit, transferEvents, hbufs]
  · simpa using hbytes

/-! ## A page -/

/-- Page `k` as the loop comes to it. -/
def pageAt (k : Nat) : U8gPage where
  pageHeight := rowsPerPage
  totalHeight := ls010b7dh01Rows
  pageY0 := .ofNat (8 * k)
  pageY1 := .ofNat (8 * k + 7)
  page := .ofNat k

/-- Page `k` with the cleared buffer. -/
def blankPage (k : Nat) : U8gPb := ⟨pageAt k, ls010b7dh01Columns, .replicate _ 0⟩

/-- Row `y` of the picture `draw` draws. -/
def pictureRow (draw : U8gPb → Cgram) (y : Nat) : List UInt8 :=
  ((draw (blankPage (y / 8))).toList.drop (bytesPerLine * (y % 8))).take bytesPerLine

theorem u8gPageNext_pageAt {k : Nat} (h : k < 15) :
    u8gPageNext (pageAt k) = (1, pageAt (k + 1)) := by
  interval_cases k <;> rfl

theorem u8gPageNext_last : (u8gPageNext (pageAt 15)).1 = 0 := by decide

theorem u8gPageFirst_eq {b : U8gPb} (h : b.Dims) : u8gPageFirst b.p = pageAt 0 := by
  obtain ⟨hheight, htotal, -⟩ := h
  unfold u8gPageFirst
  rw [hheight, htotal]
  rfl

theorem getElem_clear (buf : Cgram) (n : Nat) (i : Nat) (hi : i < 128) :
    ((List.range n).foldl (fun buf i => buf.setIfInBounds i 0) buf)[i] =
      if i < n then 0 else buf[i] := by
  induction n with
  | zero => simp
  | succ n ih =>
    rw [List.range_succ, List.foldl_append, List.foldl_cons, List.foldl_nil,
      Vector.getElem_setIfInBounds, ih]
    by_cases hn : n = i
    · rw [if_pos hn, if_pos (by omega)]
    · rw [if_neg hn]
      exact if_congr (by omega) rfl rfl

/-- The whole buffer is cleared. -/
theorem u8gPbClear_eq {b : U8gPb} (h : b.Dims) (p : U8gPage) :
    u8gPbClear { b with p := p } = ⟨p, ls010b7dh01Columns, .replicate _ 0⟩ := by
  have hbuf : (List.range b.width.toNat).foldl (fun buf i => buf.setIfInBounds i 0) b.buf =
      Vector.replicate 128 0 := by
    refine Vector.ext fun i hi => ?_
    rw [getElem_clear, h.width, Vector.getElem_replicate]
    exact if_pos hi
  unfold u8gPbClear
  rw [hbuf, h.width]

theorem u8gFirstPage_pb (d : Lcd) : (u8gFirstPage d).pb = blankPage 0 := by
  show { u8gPbClear d.pb with p := u8gPageFirst d.pb.p } = blankPage 0
  rw [u8gPageFirst_eq d.dims, u8gPbClear_eq d.dims d.pb.p]
  rfl

theorem toNat_ofInt {n : Nat} (h : n < 256) : (UInt8.ofInt n).toNat = n := by
  have hmod : ((n : Int) % 2 ^ 8).toNat = n := by omega
  rw [UInt8.ofInt, hmod, UInt8.toNat_ofNat']
  exact Nat.mod_eq_of_lt h

/-- The rows of pages `k`, …, `k + n - 1`, as they are written. -/
def rowsFrom (draw : U8gPb → Cgram) (k n : Nat) : List (Nat × List UInt8) :=
  (List.range (8 * n)).map fun j => (8 * k + j + 1, pictureRow draw (8 * k + j))

theorem rowsFrom_succ (draw : U8gPb → Cgram) (k n : Nat) :
    rowsFrom draw k (n + 1) = rowsFrom draw k 1 ++ rowsFrom draw (k + 1) n := by
  unfold rowsFrom
  rw [show 8 * (n + 1) = 8 * 1 + 8 * n by omega, List.range_add, List.map_append, List.map_map]
  congr 1
  refine List.map_congr_left fun j _ => ?_
  have hrow : 8 * k + (8 * 1 + j) = 8 * (k + 1) + j := by omega
  simp only [Function.comp_apply, hrow]

/-- What is sent for page `k` of the picture. -/
theorem writeBuffer_page {k : Nat} (hk : k < 16) (draw : U8gPb → Cgram) {d : Lcd}
    (hp : d.pb.p = pageAt k) (hbuf : d.pb.buf = draw (blankPage k)) :
    ∃ (d' : Lcd) (bufs : List (List UInt8)),
      u8gPbWriteBuffer d = (1, d') ∧ d'.pb = d.pb ∧ d'.trace = d.trace ++ transferEvents bufs ∧
      decodeTransfer bytesPerLine bufs.flatten = some (rowsFrom draw k 1) := by
  have hy0 : d.pb.p.pageY0.toNat = 8 * k := by
    simp only [hp, pageAt, UInt8.toNat_ofNat']
    omega
  have hy1 : d.pb.p.pageY1.toNat = 8 * k + 7 := by
    simp only [hp, pageAt, UInt8.toNat_ofNat']
    omega
  have hnum : ((8 * k + 7 : Nat) - (8 * k : Nat) + 1 : Int) = 8 := by omega
  have hcount : lineCount (1 + (8 * k : Nat)) 8 = 8 := by
    unfold lineCount
    rw [if_neg (by omega)]
    omega
  have hstart : (1 : Int) ≤ 1 + (8 * k : Nat) := by omega
  obtain ⟨d', mode, bufs, hupdate, hpb, htrace, hmode, hbytes⟩ :=
    updateLines_eq hstart 8 d.pb.buf.toList d
  refine ⟨d', bufs, ?_, hpb, htrace, ?_⟩
  · unfold u8gPbWriteBuffer u8gComFn
    simp only [hy0, hy1, hnum, hupdate, if_true]
  · have hlength : ∀ l ∈ linesFrom (1 + (8 * k : Nat)) (draw (blankPage k)).toList 8,
        l.2.length = bytesPerLine := mem_linesFrom_length (by simp [bytesPerLine])
    rw [hbytes, hcount, hbuf, decodeTransfer_encode hmode hlength, linesFrom, List.map_map]
    congr 1
    refine List.map_congr_left fun j hj => ?_
    have hj := List.mem_range.mp hj
    have hline : (UInt8.ofInt (1 + (8 * k : Nat) + (j : Nat))).toNat = 8 * k + j + 1 := by
      rw [show (1 + (8 * k : Nat) + (j : Nat) : Int) = (8 * k + j + 1 : Nat) by omega]
      exact toNat_ofInt (by omega)
    have hdiv : (8 * k + j) / 8 = k := by omega
    have hmod : (8 * k + j) % 8 = j := by omega
    simp only [Function.comp_apply, hline, pictureRow, hdiv, hmod]

theorem baseFn_next {k : Nat} (hk : k < 15) {d : Lcd} (hp : d.pb.p = pageAt k) :
    ∃ d', u8gDevPb8h1BaseFn .pageNext d = (1, d') ∧ d'.pb = blankPage (k + 1) ∧
      d'.trace = d.trace := by
  have hnext : u8gPageNext d.pb.p = (1, pageAt (k + 1)) := by rw [hp, u8gPageNext_pageAt hk]
  unfold u8gDevPb8h1BaseFn
  simp only [hnext]
  rw [if_neg (by decide)]
  exact ⟨_, rfl, u8gPbClear_eq d.dims _, rfl⟩

theorem baseFn_last {d : Lcd} (hp : d.pb.p = pageAt 15) :
    ∃ d', u8gDevPb8h1BaseFn .pageNext d = (0, d') ∧ d'.trace = d.trace := by
  have hlast : (u8gPageNext d.pb.p).1 = 0 := by rw [hp, u8gPageNext_last]
  unfold u8gDevPb8h1BaseFn
  simp only
  rw [if_pos hlast]
  exact ⟨_, rfl, rfl⟩

/-- One turn of the loop draws page `k` into the cleared buffer and sends its lines; the base
function then looks for the next page. -/
theorem nextPage_eq {k : Nat} (hk : k < 16) (draw : U8gPb → Cgram) {d : Lcd}
    (hd : d.pb = blankPage k) :
    ∃ (d' : Lcd) (bufs : List (List UInt8)),
      u8gNextPage (drawPage draw d) = u8gDevPb8h1BaseFn .pageNext d' ∧ d'.pb.p = pageAt k ∧
      d'.trace = d.trace ++ .draw (blankPage k) :: transferEvents bufs ∧
      decodeTransfer bytesPerLine bufs.flatten = some (rowsFrom draw k 1) := by
  obtain ⟨d', bufs, hwrite, hpb, htrace, hdecode⟩ := writeBuffer_page hk draw
    (d := drawPage draw d) (by simp only [drawPage, hd, blankPage]) (by simp only [drawPage, hd])
  refine ⟨d', bufs, ?_, ?_, ?_, hdecode⟩
  · simp [u8gNextPage, u8gDevFn, hwrite]
  · rw [hpb]
    simp only [drawPage, hd, blankPage]
  · rw [htrace]
    simp [drawPage, hd]

/-! ## The picture -/

/-- The loop from page `k` on, with `n` pages after it. -/
theorem picturePages_eq (draw : U8gPb → Cgram) {n k : Nat} (hk : k + n = 15) {d : Lcd}
    (hd : d.pb = blankPage k) :
    ∃ (d' : Lcd) (evs : List LcdEvent), d'.trace = d.trace ++ evs ∧
      (∀ fuel, picturePages draw fuel d = if n < fuel then some d' else none) ∧
      drawn evs = (List.range (n + 1)).map (fun i => blankPage (k + i)) ∧
      decodeWire bytesPerLine (wire evs) = some (rowsFrom draw k (n + 1)) := by
  induction n generalizing k d with
  | zero =>
    obtain ⟨d1, bufs, hnext, hp, htrace, hdecode⟩ := nextPage_eq (by omega) draw hd
    obtain ⟨d', hbase, htrace'⟩ := baseFn_last (d := d1) (by rw [hp, show k = 15 by omega])
    refine ⟨d', .draw (blankPage k) :: transferEvents bufs ++ [], ?_, fun fuel => ?_, ?_, ?_⟩
    · rw [htrace', htrace, List.append_nil]
    · cases fuel with
      | zero => rfl
      | succ fuel => simp [picturePages, hnext, hbase]
    · rw [drawn_page]
      rfl
    · rw [wire_page, decodeWire_transfer hdecode]
      simp [wire, decodeWire_nil]
  | succ n ih =>
    obtain ⟨d1, bufs, hnext, hp, htrace, hdecode⟩ := nextPage_eq (by omega) draw hd
    obtain ⟨d2, hbase, hpb, htrace'⟩ := baseFn_next (d := d1) (by omega) hp
    obtain ⟨d', evs, hevs, hfuel, hdrawn, hrest⟩ := ih (k := k + 1) (by omega) hpb
    refine ⟨d', .draw (blankPage k) :: transferEvents bufs ++ evs, ?_, fun fuel => ?_, ?_, ?_⟩
    · rw [hevs, htrace', htrace, List.append_assoc]
    · cases fuel with
      | zero => rfl
      | succ fuel => simp [picturePages, hnext, hbase, hfuel]
    · rw [drawn_page, hdrawn, List.range_succ_eq_map (n := n + 1), List.map_cons, List.map_map]
      refine congrArg _ (List.map_congr_left fun i _ => ?_)
      rw [Function.comp_apply, Nat.succ_eq_add_one, Nat.add_assoc, Nat.add_comm 1]
    · rw [wire_page, decodeWire_transfer hdecode, hrest, rowsFrom_succ draw k (n + 1)]
      rfl

/-- **What a picture loop puts on the wire**: it ends after 16 pages, each drawn into a cleared
buffer, and what was sent decodes to one write of each of the lines 1 to 128 in this order, line
`y + 1` with row `y` of the picture. -/
theorem decode_pictureLoop (draw : U8gPb → Cgram) (d : Lcd) :
    ∃ (d' : Lcd) (evs : List LcdEvent), d'.trace = d.trace ++ evs ∧
      (∀ fuel, pictureLoop draw fuel d = if 16 ≤ fuel then some d' else none) ∧
      drawn evs = (List.range 16).map blankPage ∧
      decodeWire bytesPerLine (wire evs) =
        some ((List.range 128).map fun y => (y + 1, pictureRow draw y)) := by
  obtain ⟨d', evs, htrace, hfuel, hdrawn, hdecode⟩ :=
    picturePages_eq draw (n := 15) (k := 0) rfl (u8gFirstPage_pb d)
  refine ⟨d', evs, htrace, hfuel, ?_, ?_⟩
  · simpa using hdrawn
  · simpa [rowsFrom] using hdecode

/-! ## The lines asked for -/

/-- The number of lines a call asks for: a negative `numLines` means from the start line to the
end of the device. -/
def linesAsked (startLine numLines : Int) : Nat :=
  if 0 > numLines then (ls010b7dh01Rows.toNat + 1 - startLine).toNat else numLines.toNat

/-- The `n` writes from `startLine` on, each with its bytes of `lineData`. -/
def lineWrites (startLine : Int) (lineData : List UInt8) (n : Nat) : List (Nat × List UInt8) :=
  (List.range n).map fun j =>
    (startLine.toNat + j, (lineData.drop (bytesPerLine * j)).take bytesPerLine)

/-- The call sends the lines it asks for and no others. -/
def SendsAsked (startLine numLines : Int) (lineData : List UInt8) (d : Lcd) : Prop :=
  ∃ (d' : Lcd) (evs : List LcdEvent), updateLines startLine numLines lineData d = (0, d') ∧
    d'.trace = d.trace ++ evs ∧
    decodeWire bytesPerLine (wire evs) =
      some (lineWrites startLine lineData (linesAsked startLine numLines))

/-- What a call puts on the wire, as long as its lines are lines of the device. -/
theorem decode_updateLines {startLine : Int} (hlo : 1 ≤ startLine) (numLines : Int)
    {lineData : List UInt8} (d : Lcd)
    (hhi : startLine + lineCount startLine numLines ≤ 129)
    (hdata : bytesPerLine * lineCount startLine numLines ≤ lineData.length) :
    ∃ (d' : Lcd) (evs : List LcdEvent), updateLines startLine numLines lineData d = (0, d') ∧
      d'.trace = d.trace ++ evs ∧
      decodeWire bytesPerLine (wire evs) =
        some (lineWrites startLine lineData (lineCount startLine numLines)) := by
  obtain ⟨d', mode, bufs, hupdate, -, htrace, hmode, hbytes⟩ :=
    updateLines_eq hlo numLines lineData d
  have hdecode : decodeTransfer bytesPerLine bufs.flatten =
      some (lineWrites startLine lineData (lineCount startLine numLines)) := by
    rw [hbytes, decodeTransfer_encode hmode (mem_linesFrom_length hdata), linesFrom, List.map_map]
    congr 1
    refine List.map_congr_left fun j hj => ?_
    have hj := List.mem_range.mp hj
    have hline : (UInt8.ofInt (startLine + (j : Nat))).toNat = startLine.toNat + j := by
      rw [show startLine + (j : Nat) = ((startLine.toNat + j : Nat) : Int) by omega]
      exact toNat_ofInt (by omega)
    simp only [Function.comp_apply, hline]
  refine ⟨d', transferEvents bufs, hupdate, htrace, ?_⟩
  have hwire := wire_transferEvents bufs []
  rw [List.append_nil] at hwire
  rw [hwire, decodeWire_transfer hdecode]
  simp [wire, decodeWire_nil]

theorem lineCount_of_nonneg {numLines : Int} (h : 0 ≤ numLines) (startLine : Int) :
    lineCount startLine numLines = linesAsked startLine numLines := by
  unfold lineCount linesAsked
  rw [if_neg (by omega), if_neg (by omega)]
  omega

/-- The end the other branch computes is that of a count of lines, taken for a line. -/
theorem lineCount_of_neg {startLine numLines : Int} (h : numLines < 0) (hlo : 1 ≤ startLine)
    (hhi : startLine ≤ 128) :
    lineCount startLine numLines < linesAsked startLine numLines := by
  have hrows : (ls010b7dh01Rows.toNat : Int) = 128 := rfl
  unfold lineCount linesAsked
  rw [if_pos h, if_pos h, hrows]
  omega

theorem start_add_linesAsked {startLine numLines : Int} (hhi : startLine ≤ 128)
    (hend : startLine + numLines ≤ 129) : startLine + linesAsked startLine numLines ≤ 129 := by
  have hrows : (ls010b7dh01Rows.toNat : Int) = 128 := rfl
  unfold linesAsked
  rw [hrows]
  split <;> omega

/-- A negative count leaves lines out. -/
theorem not_sendsAsked_of_neg {startLine numLines : Int} (hneg : numLines < 0) (hlo : 1 ≤ startLine)
    (hhi : startLine ≤ 128) {lineData : List UInt8}
    (hdata : bytesPerLine * linesAsked startLine numLines ≤ lineData.length) (d : Lcd) :
    ¬ SendsAsked startLine numLines lineData d := by
  rintro ⟨d', evs, hupdate, htrace, hdecode⟩
  have hroom : startLine + linesAsked startLine numLines ≤ 129 :=
    start_add_linesAsked hhi (by omega)
  have hfewer := lineCount_of_neg hneg hlo hhi
  have hdata' : bytesPerLine * lineCount startLine numLines ≤ lineData.length :=
    Nat.le_trans (Nat.mul_le_mul_left _ hfewer.le) hdata
  obtain ⟨d₁, evs₁, hupdate₁, htrace₁, hdecode₁⟩ :=
    decode_updateLines hlo numLines d (by omega) hdata'
  obtain rfl : d₁ = d' := by
    rw [hupdate] at hupdate₁
    exact (congrArg Prod.snd hupdate₁).symm
  obtain rfl : evs₁ = evs := List.append_cancel_left (htrace₁.symm.trans htrace)
  rw [hdecode] at hdecode₁
  have hlength := congrArg List.length (Option.some.inj hdecode₁)
  simp only [lineWrites, List.length_map, List.length_range] at hlength
  omega

/-- **A count is obeyed, the end of the device is not**: a call sends exactly the lines it asks
for if and only if `numLines` is not negative. -/
theorem updateLines_sendsAsked_iff {startLine numLines : Int} (hlo : 1 ≤ startLine)
    (hhi : startLine ≤ 128) (hend : startLine + numLines ≤ 129) {lineData : List UInt8}
    (hdata : bytesPerLine * linesAsked startLine numLines ≤ lineData.length) (d : Lcd) :
    SendsAsked startLine numLines lineData d ↔ 0 ≤ numLines := by
  constructor
  · intro h
    by_contra hneg
    exact not_sendsAsked_of_neg (Int.not_le.mp hneg) hlo hhi hdata d h
  · intro hnum
    have hroom := start_add_linesAsked hhi hend
    have hcount := lineCount_of_nonneg hnum startLine
    unfold SendsAsked
    rw [← hcount] at hroom hdata ⊢
    exact decode_updateLines hlo numLines d hroom hdata

/-- The driver before anything was drawn. -/
def lcdAtRest : Lcd where
  pb := ⟨pageAt 0, ls010b7dh01Columns, .replicate _ 0⟩
  dims := ⟨rfl, rfl, rfl⟩
  comin := 0
  trace := []

/-- Eight lines from line 1 on, as the page of a picture is sent. -/
theorem updateLines_sendsAsked_page :
    SendsAsked 1 8 (List.replicate 128 0xff) lcdAtRest ↔ (0 : Int) ≤ 8 :=
  updateLines_sendsAsked_iff (by decide) (by decide) (by decide)
    (by rw [List.length_replicate]; decide) lcdAtRest

/-- From line 1 to the end of the device, the last line is left out. -/
theorem updateLines_toEnd_counterexample :
    ¬ SendsAsked 1 (-1) (List.replicate 2048 0xff) lcdAtRest :=
  not_sendsAsked_of_neg (by decide) (by decide) (by decide)
    (by rw [List.length_replicate]; decide) lcdAtRest

end Muchiwachi
