import RowStore.Proofs.Query.Compiled
import RowStore.Query.Bracket

/-!
# Requests that are answered or refused

* `Descriptor.IsRequest v` : a request in a form in which callers may give it;
  `Descriptor.ends_requested` : it is refused, or it is a descriptor of the right form;
  `Descriptor.hasTexts_of_requested` : the descriptor of a request that has a text has texts;
* `endsIn_compile` : over columns with texts as codes such a descriptor always compiles;
* `Bracket.ends_resolve` : a text with bracketed headers is refused, or it becomes a query.
-/

namespace RowStore

/-! ## Sorting -/

/-- Texts can be sorted; the same ones come out. -/
theorem Value.exists_sorted? {vs : List Value} (h : ∀ v ∈ vs, ∃ t, v = .text t) :
    ∃ sorted, Value.sorted? vs = some sorted ∧ ∀ v ∈ sorted, v ∈ vs := by
  have hcomparable : Value.areComparable vs = true := by
    rw [Value.areComparable, List.all_eq_true]
    intro v hv
    rw [List.all_eq_true]
    intro w hw
    obtain ⟨s, rfl⟩ := h v hv
    obtain ⟨t, rfl⟩ := h w hw
    rfl
  rw [Value.sorted?, hcomparable]
  split
  · exact ⟨vs, rfl, fun _ hv => hv⟩
  · exact ⟨_, rfl, fun _ hv => List.mem_mergeSort.mp hv⟩

namespace Query

/-! ## Descriptors -/

namespace Descriptor

/-- A request as callers may give it: the names of a mapping are texts, and the parts of a descriptor
are of the right form. A value of another type is none, but it may be given, too. -/
structure IsRequest (v : Value) : Prop where
  names : ∀ fields : Entries Value, v = .mapping fields → ∀ name ∈ fields.names, ∃ t, name = .text t
  formed : ∀ d, requested v = .ok d → d.IsFormed

theorem isFormed_everything : everything.IsFormed where
  select := nofun
  conditions := nofun
  order := nofun
  entry _ he := absurd he List.not_mem_nil

theorem isFormed_first (conditions : Entries Value) : (first conditions).IsFormed where
  select := nofun
  conditions _ := rfl
  order := nofun
  entry _ he := absurd he List.not_mem_nil

theorem isRequest_null : IsRequest .null where
  names := nofun
  formed := by
    rintro d ⟨⟩
    exact isFormed_everything

/-- A request is refused only for names that are not known or for its type. -/
theorem ends_requested {v : Value} (h : IsRequest v) :
    Ends Fault.IsRefusal IsFormed (requested v) := by
  cases hrequested : requested v with
  | ok d => exact h.formed d hrequested
  | error fault =>
    unfold requested at hrequested
    split at hrequested
    · cases hrequested
    · cases hrequested
    · rename_i fields
      rw [ofMapping] at hrequested
      dsimp only at hrequested
      split at hrequested
      · cases hrequested
      · cases hrequested
        have hnames : ∀ name ∈ (Entries.names fields).filter fun name => !isKnown name,
            ∃ t, name = .text t :=
          fun name hname => h.names fields rfl name ((List.mem_filter.mp hname).1)
        obtain ⟨sorted, hsorted, hmem⟩ := Value.exists_sorted? hnames
        have htexts : (Fault.validation (.unknownDescriptorKeys sorted)).hasMessage = true := by
          refine Value.haveTexts_iff.mpr fun name hname => ?_
          obtain ⟨t, rfl⟩ := hnames name (hmem name hname)
          rfl
        rw [unknownFault, hsorted]
        dsimp only
        rw [Fault.worded_of_hasMessage htexts]
        rfl
    · cases hrequested
      rfl

/-- A descriptor has texts if its conditions, its limit and its offset have. -/
theorem hasTexts_of_parts {d : Descriptor} (hconditions : d.conditions.hasText = true)
    (hlimit : d.limit.hasText = true) (hoffset : d.offset.hasText = true) (c : Columns) : d.HasTexts c where
  conditions := by
    intro e he _
    rw [entriesOf] at he
    split at he
    · cases he
    · cases hv : d.conditions with
      | mapping entries =>
        rw [hv] at hconditions he
        exact (Value.entriesHaveTexts_iff.mp hconditions e he).2
      | _ =>
        rw [hv] at he
        cases he
  limit := by
    intro n hn _
    rw [hn] at hlimit
    exact hlimit
  offset := by
    intro n hn _
    rw [hn] at hoffset
    exact hoffset

/-- The descriptor of a request that has a text has texts. -/
theorem hasTexts_of_requested {v : Value} {d : Descriptor} (hd : requested v = .ok d) (hv : v.hasText = true)
    (c : Columns) : d.HasTexts c := by
  cases v with
  | null =>
    cases hd
    exact hasTexts_of_parts rfl rfl rfl c
  | request select conditions order limit offset =>
    cases hd
    simp only [Value.hasText, Bool.and_eq_true] at hv
    exact hasTexts_of_parts hv.1.1.1.2 hv.1.2 hv.2 c
  | mapping fields =>
    have hfields : ∀ e ∈ fields, e.2.hasText = true := fun e he => (Value.entriesHaveTexts_iff.mp hv e he).2
    have hget : ∀ name, (Value.get fields name).hasText = true :=
      fun name => Entries.hasText_getD_find? hfields (.text name)
    rw [requested, ofMapping] at hd
    dsimp only at hd
    split at hd
    · cases hd
      exact hasTexts_of_parts (hget _) (hget _) (hget _) c
    · cases hd
  | _ => cases hd

end Descriptor

/-- A descriptor of the right form that has texts compiles. -/
theorem endsIn_compile {columns : Option Columns} (hc : ∀ c, columns = some c → HasTextCodes c)
    {d : Descriptor} (hd : d.IsFormed) (ht : ∀ c, columns = some c → d.HasTexts c) :
    Noted.EndsIn Fault.Never (fun _ => True) (compile columns d) := by
  have hdegraded : Noted.EndsIn Fault.Never (fun _ => True) (compile.degraded d) := by
    rw [compile.degraded]
    split
    · exact (Noted.endsIn_note _ _).bind fun _ _ => Noted.endsIn_pure trivial
    · exact Noted.endsIn_pure trivial
  cases columns with
  | none => exact hdegraded
  | some c =>
    rw [compile]
    split
    · exact hdegraded
    · have hclauses : Noted.EndsIn Fault.Never (fun _ => True) (clausesOf c d) :=
        (gives_clausesOf (hc c rfl) hd (ht c rfl)).endsIn trivial
      exact hclauses.bind fun _ _ => Noted.endsIn_pure trivial

/-! ## Bracketed headers -/

namespace Bracket

theorem ends_substitute {c : Columns} (hc : HasTextCodes c) (p : Piece) :
    Ends Fault.IsRefusal (fun v => ∃ t, v = .text t) (substitute c p) := by
  cases p with
  | point p => exact ⟨[p], rfl⟩
  | token name =>
    rw [substitute, codeOf]
    cases hcode : c.codes.findText? name with
    | none => rfl
    | some code => exact exists_of_codeOf? hc (show codeOf? c (.text name) = some code from hcode)

theorem ends_joined {parts : List Value} (h : ∀ v ∈ parts, ∃ t, v = .text t) :
    Ends Fault.Never (fun _ => True) (joined parts) := by
  have htexts : Ends Fault.Never (fun ts : List Text => ∀ t ∈ ts, True) (parts.mapM Value.expectText) := by
    refine Ends.mapM fun v hv => ?_
    obtain ⟨t, rfl⟩ := h v hv
    exact trivial
  exact htexts.bind fun _ _ => trivial

/-- A query with bracketed headers is refused only when one of them is not known or there are no
columns. -/
theorem ends_resolve {columns : Option Columns} (hc : ∀ c, columns = some c → HasTextCodes c)
    (t : Text) : Ends Fault.IsRefusal (fun _ => True) (resolve columns (.text t)) := by
  cases columns with
  | none => rfl
  | some c =>
    rw [resolve]
    split
    · rfl
    · refine (Ends.mapM fun p _ => ends_substitute (hc c rfl) p).bind fun parts hparts => ?_
      exact (ends_joined hparts).mono (fun _ => False.elim) fun _ => id

end Bracket

end Query

end RowStore
