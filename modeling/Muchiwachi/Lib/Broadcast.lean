import Muchiwachi.Lib.Run

/-!
# Parties on a broadcast medium

Parties `ι` with states `σ` act on their own, broadcast what their state lets them, and receive
broadcasts. The medium keeps every broadcast in `sent`; a delivery hands one of them to a party,
with channel data `δ` the medium is free to choose. So a broadcast is received late, repeatedly,
out of order or never, but never made up.

`always_parties` is the invariant rule. `sent_provenance` traces a broadcast back to the step
that sent it.
-/

namespace Muchiwachi.Lib

variable {ι σ μ α δ : Type*}

structure Broadcast (ι σ μ α δ : Type*) where
  act : σ → α → σ
  /-- What a party in this state may broadcast. -/
  payload : σ → Option μ
  receive : ι → μ → δ → σ → σ

structure Medium (ι σ μ : Type*) where
  parties : ι → σ
  sent : List (ι × μ)

inductive MediumInput (ι α δ : Type*) where
  | act (i : ι) (a : α)
  | send (i : ι)
  | deliver (k : Nat) (i : ι) (d : δ)

namespace Broadcast

variable [DecidableEq ι] (b : Broadcast ι σ μ α δ)

def step (n : Medium ι σ μ) : MediumInput ι α δ → Medium ι σ μ
  | .act i a => { n with parties := Function.update n.parties i (b.act (n.parties i) a) }
  | .send i =>
    match b.payload (n.parties i) with
    | some m => { n with sent := n.sent ++ [(i, m)] }
    | none => n
  | .deliver k i d =>
    match n.sent[k]? with
    | some (j, m) =>
      { n with parties := Function.update n.parties i (b.receive j m d (n.parties i)) }
    | none => n

variable {b}

theorem step_send_some {n : Medium ι σ μ} {i : ι} {m : μ} (h : b.payload (n.parties i) = some m) :
    b.step n (.send i) = { n with sent := n.sent ++ [(i, m)] } := by
  simp only [step, h]

theorem step_send_none {n : Medium ι σ μ} {i : ι} (h : b.payload (n.parties i) = none) :
    b.step n (.send i) = n := by
  simp only [step, h]

theorem step_deliver_some {n : Medium ι σ μ} {k : Nat} {i j : ι} {m : μ} {d : δ}
    (h : n.sent[k]? = some (j, m)) : b.step n (.deliver k i d) =
      { n with parties := Function.update n.parties i (b.receive j m d (n.parties i)) } := by
  simp only [step, h]

theorem step_deliver_none {n : Medium ι σ μ} {k : Nat} {i : ι} {d : δ} (h : n.sent[k]? = none) :
    b.step n (.deliver k i d) = n := by
  simp only [step, h]

/-- What a step does to one party. -/
theorem party_step (n : Medium ι σ μ) (x : MediumInput ι α δ) (i : ι) :
    (b.step n x).parties i = n.parties i ∨
      (∃ a, x = .act i a ∧ (b.step n x).parties i = b.act (n.parties i) a) ∨
      ∃ k d j m, x = .deliver k i d ∧ n.sent[k]? = some (j, m) ∧
        (b.step n x).parties i = b.receive j m d (n.parties i) := by
  cases x with
  | act j a =>
    by_cases hj : i = j
    · subst hj
      exact .inr (.inl ⟨a, rfl, Function.update_self ..⟩)
    · exact .inl (Function.update_of_ne hj ..)
  | send j =>
    left
    cases hm : b.payload (n.parties j) with
    | none => rw [step_send_none hm]
    | some m => rw [step_send_some hm]
  | deliver k j d =>
    cases hk : n.sent[k]? with
    | none =>
      rw [step_deliver_none hk]
      exact .inl rfl
    | some x =>
      rw [step_deliver_some hk]
      by_cases hj : i = j
      · subst hj
        exact .inr (.inr ⟨k, d, x.1, x.2, rfl, hk, Function.update_self ..⟩)
      · exact .inl (Function.update_of_ne hj ..)

/-- An invariant of a party's own steps and of what it receives holds of all parties. -/
theorem always_parties {I : σ → Prop} (hact : ∀ s a, I s → I (b.act s a))
    (hreceive : ∀ j m d s, I s → I (b.receive j m d s)) {n : Medium ι σ μ}
    (h : ∀ i, I (n.parties i)) (is : List (MediumInput ι α δ)) :
    Always b.step (fun n => ∀ i, I (n.parties i)) n is := by
  refine always_of_step (fun n x hn i => ?_) h is
  rcases party_step (b := b) n x i with heq | ⟨a, -, heq⟩ | ⟨k, d, j, m, -, -, heq⟩ <;> rw [heq]
  · exact hn i
  · exact hact _ a (hn i)
  · exact hreceive j m d _ (hn i)

/-- What a step adds to `sent` is what the step sends. -/
theorem sent_step (n : Medium ι σ μ) (x : MediumInput ι α δ) :
    (b.step n x).sent = n.sent ∨
      ∃ i m, x = .send i ∧ b.payload (n.parties i) = some m ∧
        (b.step n x).sent = n.sent ++ [(i, m)] := by
  cases x with
  | act i a => exact .inl rfl
  | send i =>
    cases hm : b.payload (n.parties i) with
    | none => exact .inl (by rw [step_send_none hm])
    | some m => exact .inr ⟨i, m, rfl, hm, by rw [step_send_some hm]⟩
  | deliver k i d =>
    cases hk : n.sent[k]? with
    | none => exact .inl (by rw [step_deliver_none hk])
    | some x => exact .inl (by rw [step_deliver_some hk])

/-- **Provenance.** The broadcast at position `k` was sent by a step of the run that found `k`
broadcasts sent, out of the state its sender was in then. -/
theorem sent_provenance {n : Medium ι σ μ} (hn : n.sent = []) (is : List (MediumInput ι α δ)) :
    ∀ k i m, (run b.step n is).sent[k]? = some (i, m) →
      ∃ pre, pre ++ [.send i] <+: is ∧ (run b.step n pre).sent.length = k ∧
        b.payload ((run b.step n pre).parties i) = some m := by
  induction is using List.reverseRecOn with
  | nil =>
    intro k i m h
    rw [run_nil, hn] at h
    cases h
  | append_singleton is x ih =>
    intro k i m h
    have hold : (run b.step n is).sent[k]? = some (i, m) →
        ∃ pre, pre ++ [.send i] <+: is ++ [x] ∧ (run b.step n pre).sent.length = k ∧
          b.payload ((run b.step n pre).parties i) = some m := by
      intro h
      obtain ⟨pre, hpre, hlen, hm⟩ := ih k i m h
      exact ⟨pre, hpre.trans (List.prefix_append ..), hlen, hm⟩
    rw [run_snoc] at h
    rcases sent_step (b := b) (run b.step n is) x with hs | ⟨j, m', rfl, hm', hs⟩ <;> rw [hs] at h
    · exact hold h
    · rcases Nat.lt_trichotomy k (run b.step n is).sent.length with hlt | heq | hgt
      · rw [List.getElem?_append_left hlt] at h
        exact hold h
      · subst heq
        rw [List.getElem?_concat_length, Option.some.injEq, Prod.mk.injEq] at h
        obtain ⟨rfl, rfl⟩ := h
        exact ⟨is, List.prefix_refl _, rfl, hm'⟩
      · rw [List.getElem?_eq_none (by rw [List.length_append, List.length_singleton]; omega)] at h
        cases h

end Broadcast

end Muchiwachi.Lib
