import RowStore.Noted
import RowStore.Proofs.Fault.Outcome

/-!
# Outcomes that do not depend on the log

* `Noted.Gives m e` : the outcome of `m` is `e`, whatever notes were left before; one rule for every
  step of a computation;
* `gives_filterMapM`, `gives_mapM`, `gives_foldlM` : a filter of which no step fails is one without
  notes, and so is a list of steps; `gives_filterMapM_error` : one of which a step fails fails so;
* `Noted.EndsIn allowed good m` : whatever notes were left before, the outcome of `m` is a good value or
  an allowed fault;
* `Noted.FailsIff m P` : the outcome of `m` is a fault if `P` holds and a value if it does not.
-/

namespace RowStore.Noted

variable {α β : Type}

/-- The outcome of a computation, whatever notes were left before it. -/
def Gives (m : Noted α) (e : Except Fault α) : Prop := ∀ notes, (m.runWith notes).1 = e

theorem Gives.outcome {m : Noted α} {e : Except Fault α} (h : Gives m e) : m.outcome = e := h []

theorem gives_pure (a : α) : Gives (pure a) (.ok a) := fun _ => rfl

theorem gives_throw (fault : Fault) : Gives (throw fault : Noted α) (.error fault) := fun _ => rfl

theorem gives_note (level : NoteLevel) (text : Text) : Gives (note level text) (.ok ()) := fun _ => rfl

theorem gives_liftExcept (e : Except Fault α) : Gives (liftM e : Noted α) e := by
  intro notes
  rw [runWith_liftExcept]

theorem Gives.bind {m : Noted α} {e : Except Fault α} (hm : Gives m e) {f : α → Noted β}
    {k : α → Except Fault β} (hf : ∀ a, Gives (f a) (k a)) : Gives (m >>= f) (e >>= k) := by
  intro notes
  have h := hm notes
  rw [runWith_bind]
  rcases hrun : m.runWith notes with ⟨fault | a, notes'⟩ <;> rw [hrun] at h <;> subst h
  · rfl
  · exact hf a notes'

/-- A first computation that does not fail. -/
theorem Gives.bind_ok {m : Noted α} {a : α} (hm : Gives m (.ok a)) {f : α → Noted β}
    {e : Except Fault β} (hf : Gives (f a) e) : Gives (m >>= f) e := by
  intro notes
  have h := hm notes
  rw [runWith_bind]
  rcases hrun : m.runWith notes with ⟨fault | a', notes'⟩ <;> rw [hrun] at h <;> cases h
  exact hf notes'

/-- A first computation that fails. -/
theorem Gives.bind_error {m : Noted α} {fault : Fault} (hm : Gives m (.error fault))
    {f : α → Noted β} : Gives (m >>= f) (.error fault) := by
  intro notes
  have h := hm notes
  rw [runWith_bind]
  rcases hrun : m.runWith notes with ⟨fault' | a, notes'⟩ <;> rw [hrun] at h <;> cases h
  rfl

/-- A filter of which no step fails is one without notes. -/
theorem gives_filterMapM {f : α → Noted (Option β)} {g : α → Option β} {as : List α}
    (hf : ∀ a ∈ as, Gives (f a) (.ok (g a))) : Gives (as.filterMapM f) (.ok (as.filterMap g)) := by
  induction as with
  | nil => exact gives_pure []
  | cons a rest ih =>
    have hrest := ih fun a ha => hf a (List.mem_cons_of_mem _ ha)
    rw [List.filterMapM_cons, List.filterMap_cons]
    refine (hf a List.mem_cons_self).bind_ok ?_
    cases g a with
    | none => exact hrest
    | some b => exact hrest.bind_ok (gives_pure _)

/-- A filter of which a step fails, where the steps fail in one way only. -/
theorem gives_filterMapM_error {f : α → Noted (Option β)} {fault : Fault} {as : List α}
    (hf : ∀ a ∈ as, (∃ o, Gives (f a) (.ok o)) ∨ Gives (f a) (.error fault))
    (h : ∃ a ∈ as, Gives (f a) (.error fault)) : Gives (as.filterMapM f) (.error fault) := by
  induction as with
  | nil =>
    obtain ⟨_, ha, -⟩ := h
    cases ha
  | cons a rest ih =>
    rw [List.filterMapM_cons]
    rcases hf a List.mem_cons_self with ⟨o, ho⟩ | ha
    · have hrest : Gives (rest.filterMapM f) (.error fault) := by
        obtain ⟨b, hb, hfault⟩ := h
        rcases List.mem_cons.mp hb with rfl | hb
        · exact absurd ((ho []).symm.trans (hfault [])) nofun
        · exact ih (fun a ha => hf a (List.mem_cons_of_mem _ ha)) ⟨b, hb, hfault⟩
      refine ho.bind_ok ?_
      cases o with
      | none => exact hrest
      | some b => exact hrest.bind_error
    · exact ha.bind_error

/-- A list of steps none of which fails. -/
theorem gives_mapM {f : α → Noted β} {g : α → β} {as : List α}
    (hf : ∀ a ∈ as, Gives (f a) (.ok (g a))) : Gives (as.mapM f) (.ok (as.map g)) := by
  induction as with
  | nil => exact gives_pure []
  | cons a rest ih =>
    rw [List.mapM_cons]
    refine (hf a List.mem_cons_self).bind_ok ?_
    exact (ih fun a ha => hf a (List.mem_cons_of_mem _ ha)).bind_ok (gives_pure _)

/-- Steps one after another none of which fails. -/
theorem gives_foldlM {f : β → α → Noted β} {g : β → α → β} {as : List α}
    (hf : ∀ a ∈ as, ∀ b, Gives (f b a) (.ok (g b a))) (b : β) :
    Gives (as.foldlM f b) (.ok (as.foldl g b)) := by
  induction as generalizing b with
  | nil => exact gives_pure b
  | cons a rest ih =>
    rw [List.foldlM_cons, List.foldl_cons]
    exact (hf a List.mem_cons_self b).bind_ok (ih (fun a ha => hf a (List.mem_cons_of_mem _ ha)) _)

/-! ## Allowed faults and good values -/

/-- Whatever notes were left before, the outcome is a good value or an allowed fault. -/
def EndsIn (allowed : Fault → Prop) (good : α → Prop) (m : Noted α) : Prop :=
  ∀ notes, Ends allowed good (m.runWith notes).1

section
variable {allowed allowed' : Fault → Prop} {good : α → Prop} {good' : β → Prop}

theorem Gives.endsIn {m : Noted α} {e : Except Fault α} (hm : Gives m e) (h : Ends allowed good e) :
    EndsIn allowed good m := by
  intro notes
  rw [hm notes]
  exact h

theorem endsIn_pure {a : α} (h : good a) : EndsIn allowed good (pure a) := (gives_pure a).endsIn h

theorem EndsIn.mono {m : Noted α} (h : EndsIn allowed good m)
    (hfault : ∀ fault, allowed fault → allowed' fault) : EndsIn allowed' good m :=
  fun notes => (h notes).mono hfault fun _ => id

theorem EndsIn.bind {m : Noted α} (hm : EndsIn allowed good m) {f : α → Noted β}
    (hf : ∀ a, good a → EndsIn allowed good' (f a)) : EndsIn allowed good' (m >>= f) := by
  intro notes
  have h := hm notes
  rw [runWith_bind]
  rcases hrun : m.runWith notes with ⟨fault | a, notes'⟩ <;> rw [hrun] at h
  · exact h
  · exact hf a h notes'

theorem endsIn_liftExcept {e : Except Fault α} (h : Ends allowed good e) :
    EndsIn allowed good (liftM e : Noted α) := (gives_liftExcept e).endsIn h

theorem endsIn_note (level : NoteLevel) (text : Text) :
    EndsIn allowed (fun _ => True) (note level text) := (gives_note level text).endsIn trivial

/-- A filter of which each step ends in one value or in an allowed fault. -/
theorem endsIn_filterMapM {f : α → Noted (Option β)} {g : α → Option β} {as : List α}
    (hf : ∀ a ∈ as, EndsIn allowed (· = g a) (f a)) :
    EndsIn allowed (· = as.filterMap g) (as.filterMapM f) := by
  induction as with
  | nil => exact endsIn_pure rfl
  | cons a rest ih =>
    obtain ⟨ha, hrest⟩ := List.forall_mem_cons.mp hf
    rw [List.filterMapM_cons, List.filterMap_cons]
    refine ha.bind fun o ho => ?_
    subst ho
    cases g a with
    | none => exact ih hrest
    | some b => exact (ih hrest).bind fun bs hbs => endsIn_pure (hbs ▸ rfl)

end

/-! ## Faults under a condition -/

/-- Whatever notes were left before, the outcome is a fault if `P` holds, and a value if it does not. -/
def FailsIff (m : Noted α) (P : Prop) : Prop :=
  ((∃ a, Gives m (.ok a)) ∧ ¬ P) ∨ ((∃ fault, Gives m (.error fault)) ∧ P)

section
variable {P Q : Prop} {m : Noted α} {f : α → Noted β}

theorem FailsIff.endsIn (h : FailsIff m P) (hP : ¬ P) : EndsIn Fault.Never (fun _ => True) m := by
  obtain ⟨⟨a, ha⟩, -⟩ := h.resolve_right fun h => hP h.2
  exact ha.endsIn trivial

theorem FailsIff.exists_gives_iff (h : FailsIff m P) : (∃ a, Gives m (.ok a)) ↔ ¬ P := by
  rcases h with ⟨hvalue, hP⟩ | ⟨⟨fault, hfault⟩, hP⟩
  · exact iff_of_true hvalue hP
  · refine iff_of_false ?_ fun hnot => hnot hP
    rintro ⟨a, ha⟩
    exact nomatch (ha []).symm.trans (hfault [])

theorem FailsIff.congr (h : FailsIff m P) (hPQ : P ↔ Q) : FailsIff m Q := propext hPQ ▸ h

theorem Gives.failsIff {a : α} (h : Gives m (.ok a)) : FailsIff m False := Or.inl ⟨⟨a, h⟩, id⟩

theorem failsIff_pure (a : α) : FailsIff (pure a) False := (gives_pure a).failsIff

theorem failsIff_liftExcept (e : Except Fault α) :
    FailsIff (liftM e : Noted α) (∃ fault, e = .error fault) := by
  cases e with
  | error fault => exact Or.inr ⟨⟨fault, gives_liftExcept _⟩, fault, rfl⟩
  | ok a => exact Or.inl ⟨⟨a, gives_liftExcept (.ok a)⟩, fun ⟨_, h⟩ => nomatch h⟩

/-- A first computation whose value is known. -/
theorem Gives.bind_failsIff {a : α} (hm : Gives m (.ok a)) (hf : FailsIff (f a) P) :
    FailsIff (m >>= f) P := by
  rcases hf with ⟨⟨b, hb⟩, hP⟩ | ⟨⟨fault, hfault⟩, hP⟩
  · exact Or.inl ⟨⟨b, hm.bind_ok hb⟩, hP⟩
  · exact Or.inr ⟨⟨fault, hm.bind_ok hfault⟩, hP⟩

/-- Two computations fail if the first one does, or else the second one. -/
theorem FailsIff.bind (hm : FailsIff m P) (hf : ∀ a, FailsIff (f a) Q) :
    FailsIff (m >>= f) (P ∨ Q) := by
  rcases hm with ⟨⟨a, ha⟩, hP⟩ | ⟨⟨fault, hfault⟩, hP⟩
  · exact (ha.bind_failsIff (hf a)).congr (or_iff_right hP).symm
  · exact Or.inr ⟨⟨fault, hfault.bind_error⟩, Or.inl hP⟩

theorem failsIff_mapM {P : α → Prop} {as : List α} (h : ∀ a ∈ as, FailsIff (f a) (P a)) :
    FailsIff (as.mapM f) (∃ a ∈ as, P a) := by
  induction as with
  | nil => exact (failsIff_pure []).congr (by simp)
  | cons a rest ih =>
    obtain ⟨ha, hrest⟩ := List.forall_mem_cons.mp h
    rw [List.mapM_cons]
    refine (ha.bind fun b => (ih hrest).bind fun bs => failsIff_pure (b :: bs)).congr ?_
    simp only [List.mem_cons, exists_eq_or_imp, or_false]

/-- Steps one after another fail if one of them does, wherever the others have led. -/
theorem failsIff_foldlM {g : β → α → Noted β} {P : α → Prop} {as : List α}
    (h : ∀ a ∈ as, ∀ b, FailsIff (g b a) (P a)) (b : β) :
    FailsIff (as.foldlM g b) (∃ a ∈ as, P a) := by
  induction as generalizing b with
  | nil => exact (failsIff_pure b).congr (by simp)
  | cons a rest ih =>
    obtain ⟨ha, hrest⟩ := List.forall_mem_cons.mp h
    rw [List.foldlM_cons]
    exact ((ha b).bind fun b' => ih hrest b').congr (by simp)

end

end RowStore.Noted
