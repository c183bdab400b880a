import Mathlib.Data.List.Basic
import Mathlib.Order.Basic

/-!
# The text of a message (`draw_message`)

`draw_message` cuts a text into lines of `textChunk` characters in one buffer. A `Cell` is a byte
of the buffer together with whether it was copied from the text, which the code does not record;
`Shows` says that the lines drawn are the message. `shows_exact` says which messages are shown.
-/

namespace Muchiwachi

/-! ## Strings in memory -/

/-- A byte, and whether `memcpy` copied it from the text. -/
structure Cell where
  byte : UInt8
  fromText : Bool
  deriving DecidableEq, Repr

/-- The string at the start of a buffer; there is none without a NUL in the buffer. -/
def cstr : List Cell → Option (List Cell)
  | [] => none
  | c :: cs => if c.byte = 0 then some [] else (c :: ·) <$> cstr cs

/-- `strlen`. -/
def strlen (text : List UInt8) : Nat := (text.takeWhile (· ≠ 0)).length

theorem cstr_append {s : List Cell} {c : Cell} (rest : List Cell) (hs : ∀ x ∈ s, x.byte ≠ 0)
    (hc : c.byte = 0) : cstr (s ++ c :: rest) = some s := by
  induction s with
  | nil => simp [cstr, hc]
  | cons x s ih =>
    have hx := hs x List.mem_cons_self
    have hrest := ih fun y hy => hs y (List.mem_cons_of_mem _ hy)
    rw [List.cons_append, cstr, if_neg hx, hrest]
    rfl

theorem cstr_prefix {cs s : List Cell} (h : cstr cs = some s) : s <+: cs := by
  induction cs generalizing s with
  | nil => cases h
  | cons c cs ih =>
    rw [cstr] at h
    split at h
    · obtain rfl := Option.some.inj h
      exact List.nil_prefix ..
    · obtain ⟨s', hs', rfl⟩ := Option.map_eq_some_iff.mp h
      exact (List.prefix_cons_inj c).mpr (ih hs')

theorem strlen_append {message : List UInt8} (h : 0 ∉ message) (rest : List UInt8) :
    strlen (message ++ 0 :: rest) = message.length := by
  have hall : ∀ b ∈ message, decide (b ≠ 0) = true := by
    intro b hb
    exact decide_eq_true fun h0 => h (h0 ▸ hb)
  rw [strlen, List.takeWhile_append_of_pos hall]
  simp

/-! ## `draw_message` -/

/-- `MUCHI_MESSAGE_MAX_LEN`. -/
def muchiMessageMaxLen : Nat := 20
def maxNumLines : Nat := 4
def interlineSpacing : Nat := 16

/-- `MUCHI_MESSAGE_MAX_LEN/MAX_NUM_LINES`. -/
def textChunk : Nat := muchiMessageMaxLen / maxNumLines

theorem textChunk_eq : textChunk = 5 := rfl

/-- A call of `u8g_DrawStr` for a text line: where, and the buffer it gets. -/
structure LineDraw where
  x : Int
  y : Nat
  line : List Cell
  deriving DecidableEq, Repr

/-- `memcpy(line, src, n)`. -/
def memcpyLine (line : List Cell) (src : List UInt8) (n : Nat) : List Cell :=
  (src.take n).map (⟨·, true⟩) ++ line.drop n

/-- The buffer in turn `i` of the loop. -/
def fillLine (text : List UInt8) (lines lastlen i : Nat) (line : List Cell) : List Cell :=
  if i + 1 < lines then
    (memcpyLine line (text.drop (i * textChunk)) textChunk).set textChunk ⟨0, false⟩
  else memcpyLine line (text.drop (i * textChunk)) lastlen

/-- One turn of the loop. `strWidth` is `u8g_GetStrWidth` in the font of the message. -/
def drawLine (strWidth : List Cell → Nat) (text : List UInt8) (lines lastlen : Nat)
    (st : List Cell × List LineDraw) (i : Nat) : List Cell × List LineDraw :=
  let line := fillLine text lines lastlen i st.1
  (line, st.2 ++ [⟨64 - strWidth line / 2, 44 + i * interlineSpacing, line⟩])

/-- The text lines `draw_message` draws, over what is in `line[]` when it is called. The avatar
above them is left out. -/
def drawMessage (strWidth : List Cell → Nat) (text : List UInt8) (prior : Vector UInt8 6) :
    List LineDraw :=
  let lines := (strlen text + 1) / textChunk
  let lastlen := (strlen text + 1) % textChunk
  ((List.range lines).foldl (drawLine strWidth text lines lastlen)
    (prior.toList.map (⟨·, false⟩), [])).2

/-- The bytes of the string in a buffer. -/
def shownBytes (line : List Cell) : List UInt8 := ((cstr line).getD []).map Cell.byte

/-- The buffer holds a string of at most `textChunk` bytes, all copied from the text. -/
def ProperLine (line : List Cell) : Prop :=
  ∃ s, cstr line = some s ∧ s.length ≤ textChunk ∧ ∀ c ∈ s, c.fromText = true

/-- The lines are the message. -/
structure Shows (message : List UInt8) (lines : List (List Cell)) : Prop where
  proper : ∀ line ∈ lines, ProperLine line
  text : lines.flatMap shownBytes = message

/-! ## What is drawn -/

/-- The cells copied from `n` places of the message from `off` on. -/
def textCells (message : List UInt8) (off n : Nat) : List Cell :=
  ((message.drop off).take n).map (⟨·, true⟩)

/-- The buffer of a full line. -/
def fullLine (message : List UInt8) (i : Nat) : List Cell :=
  textCells message (i * 5) 5 ++ [⟨0, false⟩]

section

variable {message : List UInt8}

theorem length_textCells {off n : Nat} (h : off + n ≤ message.length) :
    (textCells message off n).length = n := by
  simp only [textCells, List.length_map, List.length_take, List.length_drop]
  omega

theorem textCells_ne_zero (h : 0 ∉ message) {off n : Nat} :
    ∀ c ∈ textCells message off n, c.byte ≠ 0 := by
  intro c hc h0
  obtain ⟨b, hb, rfl⟩ := List.mem_map.mp hc
  obtain rfl : b = 0 := h0
  exact h (List.mem_of_mem_drop (List.mem_of_mem_take hb))

theorem textCells_fromText {off n : Nat} : ∀ c ∈ textCells message off n, c.fromText = true := by
  intro c hc
  obtain ⟨b, -, rfl⟩ := List.mem_map.mp hc
  rfl

@[simp] theorem bytes_textCells (off n : Nat) :
    (textCells message off n).map Cell.byte = (message.drop off).take n := by
  simp [textCells, Function.comp_def]

/-- Copying from within the message. -/
theorem memcpyLine_eq {off n : Nat} (h : off + n ≤ message.length) (rest : List UInt8)
    (line : List Cell) : memcpyLine line ((message ++ 0 :: rest).drop off) n =
      textCells message off n ++ line.drop n := by
  unfold memcpyLine textCells
  rw [List.drop_append_of_le_length (by omega), List.take_append_of_le_length]
  rw [List.length_drop]
  omega

theorem length_fullLine {i : Nat} (h : i * 5 + 5 ≤ message.length) :
    (fullLine message i).length = 6 := by
  rw [fullLine, List.length_append, length_textCells h]
  rfl

theorem fillLine_full {lines lastlen i : Nat} (hi : i + 1 < lines)
    (hlen : i * 5 + 5 ≤ message.length) (rest : List UInt8) {line : List Cell}
    (hline : line.length = 6) :
    fillLine (message ++ 0 :: rest) lines lastlen i line = fullLine message i := by
  have hcells : (textCells message (i * 5) 5).length = 5 := length_textCells hlen
  obtain ⟨x, hx⟩ : ∃ x, line.drop 5 = [x] := by
    refine List.length_eq_one_iff.mp ?_
    rw [List.length_drop, hline]
  unfold fillLine
  rw [if_pos hi, textChunk_eq, memcpyLine_eq hlen, hx, List.set_append_right _ _ (by omega), hcells]
  rfl

/-- The first `n` turns of the loop, when a message has more than `n` lines. -/
theorem foldl_drawLine (strWidth : List Cell → Nat) {lines n : Nat} (lastlen : Nat)
    (hn : n < lines) (hlen : n * 5 ≤ message.length) (rest : List UInt8) {prior : List Cell}
    (hprior : prior.length = 6) :
    let st := (List.range n).foldl
      (drawLine strWidth (message ++ 0 :: rest) lines lastlen) (prior, [])
    st.1 = (if n = 0 then prior else fullLine message (n - 1)) ∧
      st.2.map LineDraw.line = (List.range n).map (fullLine message) := by
  induction n with
  | zero => exact ⟨rfl, rfl⟩
  | succ n ih =>
    obtain ⟨hline, hdraws⟩ := ih (by omega) (by omega)
    rw [List.range_succ, List.foldl_append, List.foldl_cons, List.foldl_nil]
    generalize (List.range n).foldl
      (drawLine strWidth (message ++ 0 :: rest) lines lastlen) (prior, []) = st at hline hdraws ⊢
    have hst : st.1.length = 6 := by
      rw [hline]
      split
      · exact hprior
      · exact length_fullLine (by omega)
    have hfill : fillLine (message ++ 0 :: rest) lines lastlen n st.1 = fullLine message n :=
      fillLine_full hn (by omega) rest hst
    refine ⟨?_, ?_⟩
    · simp only [drawLine, hfill]
      rw [if_neg n.succ_ne_zero, Nat.add_sub_cancel]
    · simp only [drawLine, hfill, List.map_append, hdraws, List.map_cons, List.map_nil]

/-- The lines of a message: full ones, and `r` characters over what the buffer holds by then. -/
theorem lines_drawMessage (strWidth : List Cell → Nat) (h : 0 ∉ message) {q r : Nat}
    (hlen : message.length + 1 = (q + 1) * 5 + r) (hr : r < 5) (rest : List UInt8)
    (prior : Vector UInt8 6) :
    (drawMessage strWidth (message ++ 0 :: rest) prior).map LineDraw.line =
      (List.range q).map (fullLine message) ++ [textCells message (q * 5) r ++
        (if q = 0 then prior.toList.map (⟨·, false⟩) else fullLine message (q - 1)).drop r] := by
  have hlines : (message.length + 1) / textChunk = q + 1 := by rw [textChunk_eq]; omega
  have hlast : (message.length + 1) % textChunk = r := by rw [textChunk_eq]; omega
  have hfull : q * 5 ≤ message.length := by omega
  have hprior : (prior.toList.map fun b => Cell.mk b false).length = 6 := by simp
  obtain ⟨hline, hdraws⟩ := foldl_drawLine strWidth r q.lt_succ_self hfull rest hprior
  unfold drawMessage
  rw [strlen_append h, hlines, hlast]
  simp only
  rw [List.range_succ, List.foldl_append, List.foldl_cons, List.foldl_nil]
  generalize (List.range q).foldl (drawLine strWidth (message ++ 0 :: rest) (q + 1) r) _ = st
    at hline hdraws ⊢
  have hfill : fillLine (message ++ 0 :: rest) (q + 1) r q st.1 =
      textCells message (q * 5) r ++ st.1.drop r := by
    unfold fillLine
    rw [if_neg (by omega), textChunk_eq, memcpyLine_eq (by omega)]
  simp only [drawLine, hfill, List.map_append, hdraws, List.map_cons, List.map_nil]
  rw [hline]

theorem cstr_fullLine (h : 0 ∉ message) (i : Nat) :
    cstr (fullLine message i) = some (textCells message (i * 5) 5) :=
  cstr_append [] (textCells_ne_zero h) rfl

theorem flatMap_fullLine (h : 0 ∉ message) (q : Nat) :
    ((List.range q).map (fullLine message)).flatMap shownBytes = message.take (q * 5) := by
  induction q with
  | zero => simp
  | succ q ih =>
    have hline : shownBytes (fullLine message q) = (message.drop (q * 5)).take 5 := by
      rw [shownBytes, cstr_fullLine h, Option.getD_some, bytes_textCells]
    rw [List.range_succ, List.map_append, List.flatMap_append, ih, List.map_singleton,
      List.flatMap_singleton, hline, Nat.succ_mul, List.take_add]

/-- Full lines are shown right, so it is up to the last one. -/
theorem shows_append (h : 0 ∉ message) {q : Nat} (last : List Cell) :
    Shows message ((List.range q).map (fullLine message) ++ [last]) ↔
      ProperLine last ∧ shownBytes last = message.drop (q * 5) := by
  have hfull : ∀ line ∈ (List.range q).map (fullLine message), ProperLine line := by
    intro line hline
    obtain ⟨i, -, rfl⟩ := List.mem_map.mp hline
    refine ⟨_, cstr_fullLine h i, ?_, textCells_fromText⟩
    simp only [textCells, List.length_map, List.length_take, textChunk_eq]
    omega
  have htext := flatMap_fullLine h q
  constructor
  · rintro ⟨hproper, hall⟩
    refine ⟨hproper last (by simp), ?_⟩
    rw [List.flatMap_append, htext, List.flatMap_singleton] at hall
    refine List.append_cancel_left (hall.trans (List.take_append_drop ..).symm)
  · rintro ⟨hproper, hlast⟩
    refine ⟨fun line hline => ?_, ?_⟩
    · rcases List.mem_append.mp hline with hline | hline
      · exact hfull line hline
      · rwa [List.mem_singleton.mp hline]
    · rw [List.flatMap_append, htext, List.flatMap_singleton, hlast, List.take_append_drop]

/-- The last line of several: `r` characters, and what the line before has after its first
`r`. -/
theorem proper_last (h : 0 ∉ message) {q r : Nat} (hlen : q * 5 + 5 + r ≤ message.length)
    (hr : r < 5) : ProperLine (textCells message (q * 5 + 5) r ++ (fullLine message q).drop r) ∧
      shownBytes (textCells message (q * 5 + 5) r ++ (fullLine message q).drop r) =
        (message.drop (q * 5 + 5)).take r ++ ((message.drop (q * 5)).take 5).drop r := by
  have hcells : (textCells message (q * 5) 5).length = 5 := length_textCells (by omega)
  have hlast : textCells message (q * 5 + 5) r ++ (fullLine message q).drop r =
      textCells message (q * 5 + 5) r ++ (textCells message (q * 5) 5).drop r ++ [⟨0, false⟩] := by
    rw [fullLine, List.drop_append_of_le_length (by omega), List.append_assoc]
  have hmem : ∀ c ∈ textCells message (q * 5 + 5) r ++ (textCells message (q * 5) 5).drop r,
      c.byte ≠ 0 ∧ c.fromText = true := by
    intro c hc
    rcases List.mem_append.mp hc with hc | hc
    · exact ⟨textCells_ne_zero h c hc, textCells_fromText c hc⟩
    · have hc := List.mem_of_mem_drop hc
      exact ⟨textCells_ne_zero h c hc, textCells_fromText c hc⟩
  have hcstr := cstr_append (c := ⟨0, false⟩) [] (fun c hc => (hmem c hc).1) rfl
  rw [hlast]
  refine ⟨⟨_, hcstr, ?_, fun c hc => (hmem c hc).2⟩, ?_⟩
  · rw [List.length_append, List.length_drop, hcells, length_textCells (by omega), textChunk_eq]
    omega
  · rw [shownBytes, hcstr, Option.getD_some, List.map_append, List.map_drop, bytes_textCells,
      bytes_textCells]

/-- A line over what was in the buffer before shows at most the characters copied. -/
theorem length_shownBytes_le {cells prior : List Cell} (hprior : ∀ c ∈ prior, c.fromText = false)
    (h : ProperLine (cells ++ prior)) : (shownBytes (cells ++ prior)).length ≤ cells.length := by
  obtain ⟨s, hs, -, hfrom⟩ := h
  rw [shownBytes, hs, Option.getD_some, List.length_map]
  by_contra hlt
  have hprefix := cstr_prefix hs
  -- the string goes on into what was there before
  obtain ⟨u, rfl⟩ := List.prefix_of_prefix_length_le (List.prefix_append ..) hprefix (by omega)
  cases u with
  | nil => simp at hlt
  | cons c u =>
    have hrest : c :: u <+: prior := (List.prefix_append_right_inj cells).mp hprefix
    have htrue := hfrom c (by simp)
    rw [hprior c (hrest.subset List.mem_cons_self)] at htrue
    cases htrue

/-- The message fills its lines, and the last line is the one before but for its first
character. -/
def FillsLines (message : List UInt8) : Prop :=
  10 ≤ message.length ∧ message.length % 5 = 0 ∧
    message.drop (message.length - 4) = (message.drop (message.length - 9)).take 4

/-- The last line of several shows the end of the message if that is the case. -/
theorem last_eq_iff {q r : Nat} (hlen : message.length + 1 = (q + 2) * 5 + r) (hr : r < 5) :
    (message.drop (q * 5 + 5)).take r ++ ((message.drop (q * 5)).take 5).drop r =
      message.drop (q * 5 + 5) ↔ FillsLines message := by
  have hone : r = 1 → ((message.drop (q * 5 + 5)).take r ++ ((message.drop (q * 5)).take 5).drop r =
      message.drop (q * 5 + 5) ↔
        message.drop (message.length - 4) = (message.drop (message.length - 9)).take 4) := by
    rintro rfl
    have hsplit : message.drop (q * 5 + 5) =
        (message.drop (q * 5 + 5)).take 1 ++ message.drop (message.length - 4) := by
      have h := (List.take_append_drop 1 (message.drop (q * 5 + 5))).symm
      rwa [List.drop_drop, show q * 5 + 5 + 1 = message.length - 4 by omega] at h
    have hbefore : ((message.drop (q * 5)).take 5).drop 1 =
        (message.drop (message.length - 9)).take 4 := by
      rw [List.drop_take, List.drop_drop, show message.length - 9 = q * 5 + 1 by omega]
    rw [hbefore]
    conv_lhs => rhs; rw [hsplit]
    rw [List.append_cancel_left_eq]
    exact eq_comm
  constructor
  · intro heq
    have hlength := congrArg List.length heq
    simp only [List.length_append, List.length_take, List.length_drop] at hlength
    have hr1 : r = 1 := by omega
    exact ⟨by omega, by omega, (hone hr1).mp heq⟩
  · rintro ⟨-, hmod, heq⟩
    exact (hone (by omega)).mpr heq

/-- **Which messages are shown**: those of 10, 15, 20, … characters whose last four are the four
that stand five places before them. -/
theorem shows_exact (strWidth : List Cell → Nat) (h : 0 ∉ message) (rest : List UInt8)
    (prior : Vector UInt8 6) :
    Shows message ((drawMessage strWidth (message ++ 0 :: rest) prior).map LineDraw.line) ↔
      message = [] ∨ FillsLines message := by
  by_cases hshort : message.length < 4
  · -- no line at all
    have hdraws : drawMessage strWidth (message ++ 0 :: rest) prior = [] := by
      unfold drawMessage
      rw [strlen_append h, textChunk_eq, Nat.div_eq_of_lt (by omega)]
      rfl
    rw [hdraws]
    constructor
    · exact fun hs => .inl hs.text.symm
    · rintro (rfl | hfills)
      · exact ⟨by simp, rfl⟩
      · exact absurd hfills.1 (by omega)
  · obtain ⟨q, r, hr, hlen⟩ : ∃ q r, r < 5 ∧ message.length + 1 = (q + 1) * 5 + r :=
      ⟨(message.length + 1) / 5 - 1, (message.length + 1) % 5, by omega, by omega⟩
    have hne : message ≠ [] := fun hnil => hshort (by rw [hnil]; decide)
    rw [lines_drawMessage strWidth h hlen hr, shows_append h, or_iff_right hne]
    cases q with
    | zero =>
      rw [if_pos rfl]
      refine iff_of_false ?_ fun hfills => absurd hfills.1 (by omega)
      rintro ⟨hproper, hbytes⟩
      have hle := length_shownBytes_le (fun c hc => ?_) hproper
      · rw [hbytes, length_textCells (by omega), List.length_drop] at hle
        omega
      · obtain ⟨b, -, rfl⟩ := List.mem_map.mp (List.mem_of_mem_drop hc)
        rfl
    | succ q =>
      have hlast := proper_last h (q := q) (r := r) (by omega) hr
      rw [if_neg q.succ_ne_zero, Nat.add_sub_cancel, Nat.succ_mul, ← last_eq_iff hlen hr, ← hlast.2]
      exact and_iff_right hlast.1

/-- "HI" leaves the face empty. -/
theorem hides_short : ¬ Shows [72, 73]
    ((drawMessage (fun _ => 0) [72, 73, 0] (.replicate 6 0)).map LineDraw.line) := by
  intro h
  exact absurd h.text (by decide)

theorem shows_exact_sample :
    Shows [97, 98, 99, 100, 101, 102, 98, 99, 100, 101]
      ((drawMessage (fun _ => 0) [97, 98, 99, 100, 101, 102, 98, 99, 100, 101, 0]
        (.replicate 6 7)).map LineDraw.line) := by
  have hfills : FillsLines [97, 98, 99, 100, 101, 102, 98, 99, 100, 101] := by
    unfold FillsLines
    decide
  exact (shows_exact (fun _ => 0) (by decide) [] (.replicate 6 7)).mpr (.inr hfills)

end

end Muchiwachi
