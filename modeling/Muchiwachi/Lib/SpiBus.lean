import Muchiwachi.Lib.Run

/-!
# Slaves on one bus

A master drives the clock and the data line of all slaves, and a chip select for each of them. A
slave takes part while it is selected: it sees the edges of its own chip select, and every byte
that is clocked in between. `view` is what a slave sees of what the master does.

The slaves run side by side, each on what it sees (`state_run`). While no other slave is selected
a transaction is seen and answered by its own slave alone, so any transactions are to each slave
its own ones in their order (`state_transactions`). A transaction that comes while another slave is
selected is seen by that one too: `listens_schedule_iff` says when it makes no difference.
-/

namespace Muchiwachi.Lib.SpiBus

/-- What a slave sees. -/
inductive Signal where
  | select | deselect
  | byte (b : UInt8)
  deriving DecidableEq, Repr

structure Slave (σ : Type*) where
  next : σ → Signal → σ
  /-- What the slave puts on the line back to the master while a byte is clocked, if anything. -/
  answer : σ → UInt8 → Option UInt8

/-- What the master does. -/
inductive Op (ι : Type*) where
  | drive (i : ι) (on : Bool)
  | clock (b : UInt8)

structure Bus {ι : Type*} (σ : ι → Type*) where
  selected : ι → Bool
  state : ∀ i, σ i

/-- No slave is selected. -/
def Bus.Idle {ι : Type*} {σ : ι → Type*} (bus : Bus σ) : Prop := ∀ i, bus.selected i = false

section

variable {ι : Type*} [DecidableEq ι]

/-! ## What a slave sees -/

/-- The signal a step is to slave `i`, selected or not. -/
def signal (i : ι) (on : Bool) : Op ι → Option Signal
  | .drive j v => if j = i ∧ v ≠ on then some (if v then .select else .deselect) else none
  | .clock b => if on then some (.byte b) else none

/-- Whether slave `i` is selected after a step. -/
def selects (i : ι) (on : Bool) : Op ι → Bool
  | .drive j v => if j = i then v else on
  | .clock _ => on

/-- What slave `i` sees, selected at first or not. -/
def view (i : ι) (on : Bool) (ops : List (Op ι)) : List Signal :=
  outputs (selects i) (fun on op => (signal i on op).toList) on ops

@[simp] theorem view_nil (i : ι) (on : Bool) : view i on [] = [] := rfl

@[simp] theorem view_cons (i : ι) (on : Bool) (op : Op ι) (ops : List (Op ι)) :
    view i on (op :: ops) = (signal i on op).toList ++ view i (selects i on op) ops := rfl

theorem view_append (i : ι) (on : Bool) (as bs : List (Op ι)) :
    view i on (as ++ bs) = view i on as ++ view i (run (selects i) on as) bs :=
  outputs_append ..

theorem selects_clocks (i : ι) (on : Bool) (bytes : List UInt8) :
    run (selects i) on (bytes.map .clock) = on := by
  induction bytes with
  | nil => rfl
  | cons b bytes ih => exact ih

theorem view_clocks (i : ι) (on : Bool) (bytes : List UInt8) :
    view i on (bytes.map .clock) = if on then bytes.map .byte else [] := by
  induction bytes with
  | nil => cases on <;> rfl
  | cons b bytes ih =>
    rw [List.map_cons, view_cons, selects, ih]
    cases on <;> rfl

/-! ## The slaves side by side -/

variable {σ : ι → Type*} (slave : ∀ i, Slave (σ i))

def Bus.step (bus : Bus σ) (op : Op ι) : Bus σ where
  selected i := selects i (bus.selected i) op
  state i := run (slave i).next (bus.state i) (signal i (bus.selected i) op).toList

theorem selected_run (bus : Bus σ) (ops : List (Op ι)) (i : ι) :
    (run (Bus.step slave) bus ops).selected i = run (selects i) (bus.selected i) ops := by
  induction ops generalizing bus with
  | nil => rfl
  | cons op ops ih => exact ih _

/-- **The slaves do not see each other**: each runs on its own view. -/
theorem state_run (bus : Bus σ) (ops : List (Op ι)) (i : ι) :
    (run (Bus.step slave) bus ops).state i =
      run (slave i).next (bus.state i) (view i (bus.selected i) ops) := by
  induction ops generalizing bus with
  | nil => rfl
  | cons op ops ih =>
    rw [run_cons, ih, view_cons, run_append]
    rfl

/-- On an idle bus there is no slave to deselect. -/
theorem step_deselect {bus : Bus σ} (h : bus.Idle) (i : ι) :
    bus.step slave (.drive i false) = bus := by
  obtain ⟨selected, state⟩ := bus
  have hoff : selected = fun _ => false := funext h
  subst hoff
  simp [Bus.step, selects, signal]

/-- What the master reads while a byte is clocked. `line` is the line back as the slaves drive
it. -/
def Bus.reads (line : (ι → Option UInt8) → UInt8) (bus : Bus σ) : Op ι → List UInt8
  | .clock b => [line fun i => if bus.selected i then (slave i).answer (bus.state i) b else none]
  | .drive _ _ => []

/-- All the master reads. -/
def Bus.answers (line : (ι → Option UInt8) → UInt8) (bus : Bus σ) (ops : List (Op ι)) :
    List UInt8 := outputs (Bus.step slave) (Bus.reads slave line) bus ops

/-! ## Transactions -/

/-- What the master does for one transaction. -/
def transaction (i : ι) (bytes : List UInt8) : List (Op ι) :=
  .drive i true :: (bytes.map .clock ++ [.drive i false])

/-- What a transaction is to its slave. -/
def frame (bytes : List UInt8) : List Signal := .select :: (bytes.map .byte ++ [.deselect])

theorem selects_transaction (i j : ι) (on : Bool) (bytes : List UInt8) :
    run (selects i) on (transaction j bytes) = if j = i then false else on := by
  rw [transaction, run_cons, run_append, selects_clocks]
  by_cases h : j = i <;> simp [selects, h]

theorem view_transaction (i : ι) (bytes : List UInt8) :
    view i false (transaction i bytes) = frame bytes := by
  rw [transaction, view_cons, view_append, selects_clocks]
  simp [selects, signal, view_clocks, frame]

/-- A transaction with another slave is to a selected one its bytes, and to one that is not
selected nothing. -/
theorem view_foreign {i j : ι} (h : j ≠ i) (on : Bool) (bytes : List UInt8) :
    view i on (transaction j bytes) = if on then bytes.map .byte else [] := by
  rw [transaction, view_cons, view_append, selects_clocks]
  simp [selects, signal, view_clocks, h]

/-- What a transaction does to the bus. -/
theorem run_transaction {bus : Bus σ} (hidle : bus.Idle) (i : ι) (bytes : List UInt8) :
    run (Bus.step slave) bus (transaction i bytes) =
      { bus with
        state := Function.update bus.state i
          (run (slave i).next (bus.state i) (frame bytes)) } := by
  have hselected : (run (Bus.step slave) bus (transaction i bytes)).selected = bus.selected := by
    funext j
    rw [selected_run, selects_transaction, hidle j]
    exact ite_self _
  have hstate : (run (Bus.step slave) bus (transaction i bytes)).state =
      Function.update bus.state i (run (slave i).next (bus.state i) (frame bytes)) := by
    funext j
    rw [state_run, hidle j]
    by_cases h : j = i
    · subst h
      rw [Function.update_self, view_transaction]
    · rw [Function.update_of_ne h, view_foreign (Ne.symm h)]
      rfl
  generalize run (Bus.step slave) bus (transaction i bytes) = bus' at hselected hstate ⊢
  obtain ⟨selected', state'⟩ := bus'
  subst hselected hstate
  rfl

theorem idle_transaction {bus : Bus σ} (hidle : bus.Idle) (i : ι) (bytes : List UInt8) :
    (run (Bus.step slave) bus (transaction i bytes)).Idle := by
  rw [run_transaction slave hidle]
  exact hidle

/-- The slave of a transaction need not know who else is selected. -/
theorem state_transaction_self {bus : Bus σ} {i : ι} (h : bus.selected i = false)
    (bytes : List UInt8) :
    (run (Bus.step slave) bus (transaction i bytes)).state i =
      run (slave i).next (bus.state i) (frame bytes) := by
  rw [state_run, h, view_transaction]

theorem selected_transaction (bus : Bus σ) (i j : ι) (bytes : List UInt8) :
    (run (Bus.step slave) bus (transaction j bytes)).selected i =
      if j = i then false else bus.selected i := by
  rw [selected_run, selects_transaction]

theorem state_transaction_of_ne {bus : Bus σ} (hidle : bus.Idle) {i j : ι} (h : j ≠ i)
    (bytes : List UInt8) :
    (run (Bus.step slave) bus (transaction i bytes)).state j = bus.state j := by
  rw [run_transaction slave hidle]
  exact Function.update_of_ne h ..

/-- **Transactions in any order** are to each slave its own ones. -/
theorem state_transactions {bus : Bus σ} (hidle : bus.Idle) (ts : List (ι × List UInt8)) (i : ι) :
    (run (Bus.step slave) bus (ts.flatMap fun t => transaction t.1 t.2)).state i =
      run (slave i).next (bus.state i) ((ts.filter (·.1 = i)).flatMap fun t => frame t.2) := by
  induction ts generalizing bus with
  | nil => rfl
  | cons t ts ih =>
    have hrest := ih (idle_transaction slave hidle t.1 t.2)
    rw [List.flatMap_cons, run_append, hrest]
    by_cases h : t.1 = i
    · subst h
      rw [List.filter_cons_of_pos (by simp), List.flatMap_cons, run_append,
        state_transaction_self slave (hidle t.1)]
    · rw [List.filter_cons_of_neg (by simpa using h),
        state_transaction_of_ne slave hidle (Ne.symm h)]

theorem idle_transactions {bus : Bus σ} (hidle : bus.Idle) (ts : List (ι × List UInt8)) :
    (run (Bus.step slave) bus (ts.flatMap fun t => transaction t.1 t.2)).Idle := by
  induction ts generalizing bus with
  | nil => exact hidle
  | cons t ts ih =>
    rw [List.flatMap_cons, run_append]
    exact ih (idle_transaction slave hidle t.1 t.2)

/-! ## Answers -/

/-- What a slave answers to a signal. -/
def Slave.reply {τ : Type*} (s : Slave τ) (t : τ) : Signal → List (Option UInt8)
  | .byte b => [s.answer t b]
  | .select | .deselect => []

/-- What a slave answers to a transaction. -/
def Slave.replies {τ : Type*} (s : Slave τ) (t : τ) (bytes : List UInt8) : List (Option UInt8) :=
  outputs s.next s.reply t (frame bytes)

section

variable (line : (ι → Option UInt8) → UInt8) {bus : Bus σ} {i : ι}

/-- The line back while slave `i` alone drives it. -/
def single (i : ι) (r : Option UInt8) : UInt8 := line (Function.update (fun _ => none) i r)

theorem answers_clocks (hon : bus.selected i = true) (hoff : ∀ j ≠ i, bus.selected j = false)
    (bytes : List UInt8) :
    bus.answers slave line (bytes.map .clock) =
      (outputs (slave i).next (slave i).reply (bus.state i) (bytes.map .byte)).map
        (single line i) := by
  induction bytes generalizing bus with
  | nil => rfl
  | cons b bytes ih =>
    have hnow : (fun j => if bus.selected j then (slave j).answer (bus.state j) b else none) =
        Function.update (fun _ => none) i ((slave i).answer (bus.state i) b) := by
      funext j
      by_cases h : j = i
      · subst h
        rw [Function.update_self, if_pos hon]
      · rw [Function.update_of_ne h, hoff j h]
        rfl
    have hstate : (bus.step slave (.clock b)).state i = (slave i).next (bus.state i) (.byte b) := by
      simp [Bus.step, signal, hon]
    have hrest := @ih (bus.step slave (.clock b)) hon hoff
    rw [hstate] at hrest
    rw [Bus.answers] at hrest ⊢
    rw [List.map_cons, outputs, hrest, Bus.reads, hnow]
    rfl

/-- **What a transaction reads** is what its slave answers. -/
theorem answers_transaction (hidle : bus.Idle) (i : ι) (bytes : List UInt8) :
    bus.answers slave line (transaction i bytes) =
      ((slave i).replies (bus.state i) bytes).map (single line i) := by
  have hon : (bus.step slave (.drive i true)).selected i = true := by simp [Bus.step, selects]
  have hoff : ∀ j ≠ i, (bus.step slave (.drive i true)).selected j = false := by
    intro j hj
    simp [Bus.step, selects, hj.symm, hidle j]
  have hstate :
      (bus.step slave (.drive i true)).state i = (slave i).next (bus.state i) .select := by
    simp [Bus.step, signal, hidle i]
  have hbytes := answers_clocks slave line hon hoff bytes
  have hreplies : (slave i).replies (bus.state i) bytes =
      outputs (slave i).next (slave i).reply ((slave i).next (bus.state i) .select)
        (bytes.map .byte) := by
    simp [Slave.replies, frame, outputs, outputs_append, Slave.reply]
  rw [hstate] at hbytes
  rw [Bus.answers] at hbytes ⊢
  rw [transaction, outputs, outputs_append, hbytes, hreplies]
  simp [outputs, Bus.reads]

end

/-! ## A slave that listens -/

/-- The transactions a slave has taken, and what it has of one that is open. -/
structure Listener where
  frames : List (List UInt8)
  sent : Option (List UInt8)
  deriving DecidableEq, Repr

def listener : Slave Listener where
  next l
    | .select => { l with sent := some [] }
    | .deselect => ⟨l.frames ++ l.sent.toList, none⟩
    | .byte b => { l with sent := l.sent.map (· ++ [b]) }
  answer _ _ := none

theorem listener_bytes (frames : List (List UInt8)) (sent bytes : List UInt8) :
    run listener.next ⟨frames, some sent⟩ (bytes.map .byte) = ⟨frames, some (sent ++ bytes)⟩ := by
  induction bytes generalizing sent with
  | nil => simp
  | cons b bytes ih =>
    have hbyte : listener.next ⟨frames, some sent⟩ (.byte b) = ⟨frames, some (sent ++ [b])⟩ := rfl
    rw [List.map_cons, run_cons, hbyte, ih, List.append_assoc, List.singleton_append]

theorem listener_frame (l : Listener) (bytes : List UInt8) :
    run listener.next l (frame bytes) = ⟨l.frames ++ [bytes], none⟩ := by
  rw [frame, run_cons, run_append]
  have hbytes := listener_bytes l.frames [] bytes
  rw [List.nil_append] at hbytes
  show run listener.next (run listener.next ⟨l.frames, some []⟩ _) _ = _
  rw [hbytes]
  rfl

theorem listener_frames (l : Listener) (fs : List (List UInt8)) :
    (run listener.next l (fs.flatMap frame)).frames = l.frames ++ fs := by
  induction fs generalizing l with
  | nil => simp
  | cons bytes fs ih =>
    rw [List.flatMap_cons, run_append, ih, listener_frame, List.append_assoc, List.singleton_append]

/-! ## Transactions in between -/

/-- What a master does step by step, and transactions that come in between. -/
abbrev Schedule (ι : Type*) := List (Op ι ⊕ ι × List UInt8)

def Schedule.ops (s : Schedule ι) : List (Op ι) :=
  s.flatMap (Sum.elim (fun op => [op]) fun t => transaction t.1 t.2)

/-- Without the transactions in between. -/
def Schedule.own (s : Schedule ι) : List (Op ι) := s.filterMap Sum.getLeft?

/-- Whether slave `i` is selected, transactions in between apart. -/
def selectsOwn (i : ι) (on : Bool) : Op ι ⊕ ι × List UInt8 → Bool
  | .inl op => selects i on op
  | .inr _ => on

/-- A transaction comes while the slave is selected. -/
def intrudes (on : Bool) : Op ι ⊕ ι × List UInt8 → Prop
  | .inl _ => False
  | .inr t => on = true ∧ t.2 ≠ []

/-- The bytes of some signals. -/
def byteCount (signals : List Signal) : Nat :=
  (signals.filter fun | .byte _ => true | _ => false).length

@[simp] theorem byteCount_append (as bs : List Signal) :
    byteCount (as ++ bs) = byteCount as + byteCount bs := by simp [byteCount]

@[simp] theorem byteCount_bytes (bytes : List UInt8) :
    byteCount (bytes.map .byte) = bytes.length := by
  induction bytes with
  | nil => rfl
  | cons b bytes ih => exact congrArg (· + 1) ih

/-- The bytes a listener has taken. -/
def Listener.heard (l : Listener) : Nat := l.frames.flatten.length + (l.sent.getD []).length

theorem heard_view (i : ι) {on : Bool} {l : Listener} (hl : l.sent.isSome = on)
    (ops : List (Op ι)) :
    (run listener.next l (view i on ops)).heard = l.heard + byteCount (view i on ops) := by
  induction ops generalizing on l with
  | nil => rfl
  | cons op ops ih =>
    obtain ⟨frames, sent⟩ := l
    have hnext : (run listener.next ⟨frames, sent⟩ (signal i on op).toList).sent.isSome =
          selects i on op ∧
        (run listener.next ⟨frames, sent⟩ (signal i on op).toList).heard =
          Listener.heard ⟨frames, sent⟩ + byteCount (signal i on op).toList := by
      subst hl
      cases op with
      | drive j v =>
        by_cases h : j = i
        · cases sent <;> cases v <;>
            simp [signal, selects, h, listener, Listener.heard, byteCount]
        · cases sent <;> simp [signal, selects, h, byteCount]
      | clock b =>
        cases sent <;> simp [signal, selects, listener, Listener.heard, byteCount, Nat.add_assoc]
    rw [view_cons, run_append, ih hnext.1, hnext.2, byteCount_append, Nat.add_assoc]

/-- The bytes that come in between while slave `i` is selected. -/
def intruders (i : ι) : Bool → Schedule ι → Nat
  | _, [] => 0
  | on, .inl op :: s => intruders i (selects i on op) s
  | on, .inr t :: s => (if on then t.2.length else 0) + intruders i on s

theorem intruders_eq_zero_iff (i : ι) (on : Bool) (s : Schedule ι) :
    intruders i on s = 0 ↔ EachStep (selectsOwn i) (fun on p => ¬ intrudes on p) on s := by
  induction s generalizing on with
  | nil => exact iff_of_true rfl eachStep_nil
  | cons p s ih =>
    rw [eachStep_cons]
    cases p with
    | inl op =>
      rw [intruders, ih]
      exact (and_iff_right not_false).symm
    | inr t =>
      rw [intruders, Nat.add_eq_zero_iff, ih]
      refine and_congr ?_ Iff.rfl
      cases on <;> simp [intrudes]

/-- Slave `i` sees what comes in between while it is selected, and no more. -/
theorem view_schedule (i : ι) (on : Bool) {s : Schedule ι} (hs : ∀ t, .inr t ∈ s → t.1 ≠ i) :
    byteCount (view i on s.ops) = byteCount (view i on s.own) + intruders i on s ∧
      (intruders i on s = 0 → view i on s.ops = view i on s.own) := by
  induction s generalizing on with
  | nil => exact ⟨rfl, fun _ => rfl⟩
  | cons p s ih =>
    have hs' : ∀ t, .inr t ∈ s → t.1 ≠ i := fun t ht => hs t (List.mem_cons_of_mem _ ht)
    cases p with
    | inl op =>
      obtain ⟨hcount, hsame⟩ := ih (selects i on op) hs'
      have hops : Schedule.ops (.inl op :: s) = op :: Schedule.ops s := rfl
      have hown : Schedule.own (.inl op :: s) = op :: Schedule.own s := rfl
      rw [hops, hown, view_cons, view_cons, byteCount_append, byteCount_append, hcount, intruders]
      exact ⟨(Nat.add_assoc ..).symm, fun h => by rw [hsame h]⟩
    | inr t =>
      obtain ⟨hcount, hsame⟩ := ih on hs'
      have hne : t.1 ≠ i := hs t List.mem_cons_self
      have hops : Schedule.ops (.inr t :: s) = transaction t.1 t.2 ++ Schedule.ops s := rfl
      have hown : Schedule.own (.inr t :: s) = Schedule.own s := rfl
      rw [hops, hown, view_append, view_foreign hne, selects_transaction, if_neg hne,
        byteCount_append, hcount, intruders]
      cases on with
      | false => exact ⟨by simp [byteCount], fun h => by simpa using hsame (by simpa using h)⟩
      | true =>
        refine ⟨by simp; omega, fun h => ?_⟩
        obtain ⟨hnone, hzero⟩ := Nat.add_eq_zero_iff.mp h
        rw [if_pos rfl, List.length_eq_zero_iff] at hnone
        rw [hnone, hsame hzero]
        rfl

/-- **When a slave can be left selected**: with transactions of other slaves in between, a listener
takes what it takes without them exactly if none of them comes while it is selected. -/
theorem listens_schedule_iff (i : ι) {on : Bool} {l : Listener} (hl : l.sent.isSome = on)
    {s : Schedule ι} (hs : ∀ t, .inr t ∈ s → t.1 ≠ i) :
    run listener.next l (view i on s.ops) = run listener.next l (view i on s.own) ↔
      EachStep (selectsOwn i) (fun on p => ¬ intrudes on p) on s := by
  obtain ⟨hcount, hsame⟩ := view_schedule i on hs
  rw [← intruders_eq_zero_iff]
  constructor
  · intro h
    have hheard := congrArg Listener.heard h
    rw [heard_view i hl, heard_view i hl, hcount] at hheard
    omega
  · intro h
    rw [hsame h]

end

end Muchiwachi.Lib.SpiBus
