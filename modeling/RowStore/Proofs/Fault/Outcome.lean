import Mathlib.Data.List.Forall2
import RowStore.Fault.Basic

/-!
# Outcomes in steps

* `bind_eq_ok`, `map_eq_ok` : two steps succeed only if both of them do; `of_guard_eq_ok` : what is guarded by a
  check succeeds only if it passes the check;
* `exists_of_mem_mapM` : where a step is made for each element of a list, every element of the result
  comes from one of them; `mapM_cases` : steps in a row all succeed, or fail as one of them does;
* `exists_forall₂_iff` : a list is related to another one by one iff each of its elements is related to something;
* `mapM_eq_pure` : steps none of which fails or has an effect are a map;
* `Value.before_int` : integers can be compared, and are ordered as numbers;
* `Fault.IsRecord`, `Fault.IsRefusal`, `Fault.Refuses`, `Fault.Never` : the faults that may be allowed;
* `Ends allowed good e` : an outcome that is a good value or an allowed fault; one rule for each way of
  putting steps together.
-/

namespace RowStore

variable {α β : Type}

theorem bind_eq_ok {ε : Type} {e : Except ε α} {f : α → Except ε β} {b : β}
    (h : (e >>= f) = .ok b) : ∃ a, e = .ok a ∧ f a = .ok b := by
  cases e with
  | error fault => cases h
  | ok a => exact ⟨a, rfl, h⟩

theorem map_eq_ok {ε : Type} {e : Except ε α} {f : α → β} {b : β}
    (h : e.map f = .ok b) : ∃ a, e = .ok a ∧ f a = b := by
  cases e with
  | error fault => cases h
  | ok a => exact ⟨a, rfl, Except.ok.inj h⟩

theorem eq_ok_of_toOption {ε : Type} {e : Except ε α} {a : α} (h : e.toOption = some a) : e = .ok a := by
  cases e with
  | error fault => cases h
  | ok a' => exact congrArg Except.ok (Option.some.inj h)

theorem of_guard_eq_ok {p : Prop} [Decidable p] {fault : Fault} {k : α → Except Fault β}
    {e : Except Fault β} {b : β}
    (h : (if p then (throw fault : Except Fault α) >>= k else e) = .ok b) : ¬ p ∧ e = .ok b := by
  by_cases hp : p
  · rw [if_pos hp] at h
    cases h
  · rw [if_neg hp] at h
    exact ⟨hp, h⟩

/-- Every element of the result comes from an element of the list. -/
theorem exists_of_mem_mapM {f : α → Except Fault β} {as : List α} {bs : List β}
    (h : as.mapM f = .ok bs) : ∀ b ∈ bs, ∃ a ∈ as, f a = .ok b := by
  induction as generalizing bs with
  | nil =>
    cases h
    exact fun _ hb => absurd hb List.not_mem_nil
  | cons a rest ih =>
    rw [List.mapM_cons] at h
    obtain ⟨b, hb, h⟩ := bind_eq_ok h
    obtain ⟨bs', hbs', h⟩ := bind_eq_ok h
    cases h
    intro b' hb'
    rcases List.mem_cons.mp hb' with rfl | hb'
    · exact ⟨a, List.mem_cons_self, hb⟩
    · obtain ⟨a', ha', hf⟩ := ih hbs' b' hb'
      exact ⟨a', List.mem_cons_of_mem _ ha', hf⟩

/-- Steps in a row all succeed, or they fail as one of them does. -/
theorem mapM_cases (f : α → Except Fault β) (as : List α) :
    (∃ bs, as.mapM f = .ok bs ∧ ∀ a ∈ as, ∃ b, f a = .ok b) ∨
      ∃ fault, as.mapM f = .error fault ∧ ∃ a ∈ as, f a = .error fault := by
  induction as with
  | nil => exact Or.inl ⟨[], rfl, fun _ h => absurd h List.not_mem_nil⟩
  | cons a rest ih =>
    rw [List.mapM_cons]
    cases ha : f a with
    | error fault => exact Or.inr ⟨fault, rfl, a, List.mem_cons_self, ha⟩
    | ok b =>
      rcases ih with ⟨bs, hbs, hall⟩ | ⟨fault, hfault, a', ha', hf⟩
      · refine Or.inl ⟨b :: bs, ?_, List.forall_mem_cons.mpr ⟨⟨b, ha⟩, hall⟩⟩
        rw [hbs]
        rfl
      · refine Or.inr ⟨fault, ?_, a', List.mem_cons_of_mem _ ha', hf⟩
        rw [hfault]
        rfl

/-- A list is related to another one iff each of its elements is related to something. -/
theorem exists_forall₂_iff {R : α → β → Prop} {as : List α} :
    (∃ bs, List.Forall₂ R as bs) ↔ ∀ a ∈ as, ∃ b, R a b := by
  induction as with
  | nil => exact iff_of_true ⟨[], .nil⟩ fun _ h => absurd h List.not_mem_nil
  | cons a rest ih =>
    rw [List.forall_mem_cons, ← ih]
    constructor
    · rintro ⟨_, _ | ⟨ha, hrest⟩⟩
      exact ⟨⟨_, ha⟩, _, hrest⟩
    · rintro ⟨⟨b, hb⟩, bs, hbs⟩
      exact ⟨b :: bs, .cons hb hbs⟩

theorem exists_of_forall₂ {R : α → β → Prop} {as : List α} {bs : List β} (h : List.Forall₂ R as bs) :
    ∀ a ∈ as, ∃ b ∈ bs, R a b := by
  induction h with
  | nil => exact fun _ ha => absurd ha List.not_mem_nil
  | @cons a b _ _ hab _ ih =>
    refine List.forall_mem_cons.mpr ⟨⟨b, List.mem_cons_self, hab⟩, fun a' ha' => ?_⟩
    obtain ⟨b', hb', hab'⟩ := ih a' ha'
    exact ⟨b', List.mem_cons_of_mem _ hb', hab'⟩

/-- Steps without effects give the results one by one. -/
theorem mapM_eq_pure {m : Type → Type} [Monad m] [LawfulMonad m] {f : α → m β} {g : α → β}
    {as : List α} (h : ∀ a ∈ as, f a = pure (g a)) : as.mapM f = pure (as.map g) := by
  induction as with
  | nil => rfl
  | cons a rest ih =>
    obtain ⟨ha, hrest⟩ := List.forall_mem_cons.mp h
    rw [List.mapM_cons, ha, ih hrest, pure_bind, pure_bind]
    rfl

/-! ## The order of numbers -/

/-- Integers are ordered as numbers. -/
theorem Value.before_int (m n : Int) : (Value.int m).before (.int n) = .ok (decide (m < n)) := by
  have hunits : (0 : Int) < Binary64.unitsPerOne := by
    rw [Binary64.unitsPerOne]
    generalize 1074 = k
    exact Int.natCast_pos.mpr (Nat.two_pow_pos k)
  have hless : (Value.int m).isLess (.int n) = decide (m < n) := by
    simp only [Value.isLess, Value.place?, Value.integer?, Option.map_some, Value.placeBefore,
      Int.lt_irrefl, decide_false, Bool.false_or, BEq.rfl, Bool.true_and,
      Int.mul_lt_mul_right hunits]
  rw [Value.before, show (Value.int m).precedes? (.int n) = some ((Value.int m).isLess (.int n)) by
    simp [Value.precedes?, Value.isNumber], hless]
  rfl

/-! ## Allowed faults and good values -/

/-- A fault of one of this library's own kinds. -/
abbrev Fault.IsRecord (fault : Fault) : Prop := fault.isRecordFault = true

/-- A refusal of input. -/
abbrev Fault.IsRefusal (fault : Fault) : Prop := fault.kind.isValidation = true

/-- A refusal of an input, or the fault of one that has no text. -/
abbrev Fault.Refuses (hasText : Bool) (fault : Fault) : Prop :=
  fault.IsRefusal ∨ (fault = .malformed ∧ hasText = false)

/-- No fault at all. -/
abbrev Fault.Never (_ : Fault) : Prop := False

/-- An outcome that is a good value or an allowed fault. -/
def Ends (allowed : Fault → Prop) (good : α → Prop) : Except Fault α → Prop
  | .ok a => good a
  | .error fault => allowed fault

namespace Ends

variable {allowed allowed' : Fault → Prop} {good good' : α → Prop} {e : Except Fault α}

theorem mono (h : Ends allowed good e) (hfault : ∀ fault, allowed fault → allowed' fault)
    (hvalue : ∀ a, good a → good' a) : Ends allowed' good' e := by
  cases e with
  | error fault => exact hfault fault h
  | ok a => exact hvalue a h

/-- What an input is part of has no text where the input has none. -/
theorem refuses {hasText hasText' : Bool} (h : Ends (Fault.Refuses hasText) good e)
    (htext : hasText = false → hasText' = false) : Ends (Fault.Refuses hasText') good e :=
  h.mono (fun _ => Or.imp_right fun hfault => ⟨hfault.1, htext hfault.2⟩) fun _ => id

/-- An input that has a text is refused, or good. -/
theorem isRefusal {hasText : Bool} (h : Ends (Fault.Refuses hasText) good e) (htext : hasText = true) :
    Ends Fault.IsRefusal good e :=
  h.mono (fun _ hfault => hfault.resolve_right fun hmalformed =>
    Bool.false_ne_true (hmalformed.2.symm.trans htext)) fun _ => id

theorem exists_ok (h : Ends Fault.Never good e) : ∃ a, e = .ok a ∧ good a := by
  cases e with
  | error fault => exact h.elim
  | ok a => exact ⟨a, rfl, h⟩

theorem bind (h : Ends allowed good e) {f : α → Except Fault β} {good' : β → Prop}
    (hf : ∀ a, good a → Ends allowed good' (f a)) : Ends allowed good' (e >>= f) := by
  cases e with
  | error fault => exact h
  | ok a => exact hf a h

theorem mapM {f : α → Except Fault β} {good : β → Prop} {as : List α}
    (h : ∀ a ∈ as, Ends allowed good (f a)) :
    Ends allowed (fun bs => ∀ b ∈ bs, good b) (as.mapM f) := by
  induction as with
  | nil => exact fun _ hb => absurd hb List.not_mem_nil
  | cons a rest ih =>
    obtain ⟨ha, hrest⟩ := List.forall_mem_cons.mp h
    rw [List.mapM_cons]
    refine ha.bind fun b hb => (ih hrest).bind fun bs hbs => ?_
    exact List.forall_mem_cons.mpr ⟨hb, hbs⟩

end Ends

end RowStore
