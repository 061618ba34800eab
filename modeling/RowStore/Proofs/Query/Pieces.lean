import RowStore.Proofs.Query.Compiled
import RowStore.Proofs.Query.Reader
import RowStore.Proofs.Text.Split

/-!
# Parts of a query read back

What follows a part decides whether it can be read back: a code ends before anything but a capital
letter, and a number at a blank.

* `readQuoted_escapePoint` : a text in quotes is read back, whatever is in it;
* `readConstant_render`, `readComparison_render`, `readTerm_render` : so are constants, comparisons
  and order terms;
* `readMany_join` : parts that are read back one by one are read back with separators between them.
-/

namespace RowStore.Query

/-! ## Words -/

/-- What may follow a code: nothing, or anything but a capital letter. -/
def EndsCode (t : Text) : Prop := ∀ p ∈ t.head?, p.isOf Column.isCapital = false

/-- What may follow a word: nothing, or a blank. -/
def EndsWord (t : Text) : Prop := ∀ p ∈ t.head?, p = .char ' '

theorem EndsWord.endsCode {t : Text} (h : EndsWord t) : EndsCode t := by
  intro p hp
  rw [h p hp]
  rfl

@[simp] theorem after?_append (start t : Text) : after? start (start ++ t) = some t := by
  induction start with
  | nil => rfl
  | cons p start ih => rw [List.cons_append, after?, if_pos rfl, ih]

theorem readCode_append {code t : Text} (hcode : IsCode code) (ht : EndsCode t) :
    readCode (code ++ t) = some (code, t) := by
  obtain ⟨cs, hne, hcs, rfl⟩ := hcode
  rw [readCode, Text.span_ofChars hcs ht, if_neg hne]

theorem word_append {w t : Text} (hw : ∀ p ∈ w, p ≠ .char ' ') (ht : EndsWord t) :
    word (w ++ t) = w ∧ afterWord (w ++ t) = t := by
  have hblank : ∀ p ∈ t.head?, decide (p ≠ .char ' ') = false := by
    intro p hp
    rw [ht p hp]
    rfl
  exact span_append (fun p hp => decide_eq_true (hw p hp)) hblank

/-! ## Constants -/

/-- The constant that a literal stands for. -/
def Literal.constant : Literal → Constant
  | .integer n => .integer n
  | .decimal x => .decimal x.text.toList
  | .truth b => .truth b
  | .quoted t => .quoted t

theorem readQuoted_quote (t : Text) : readQuoted (.char '\'' :: t) = some ([], t) := by
  rw [readQuoted.eq_def]
  exact if_pos rfl

theorem readQuoted_backslash (p : CodePoint) (t : Text) :
    readQuoted (.char '\\' :: p :: t) = (readQuoted t).map fun r => (p :: r.1, r.2) := by
  rw [readQuoted.eq_def]
  dsimp only
  rw [if_neg (by decide), if_pos rfl]

theorem readQuoted_cons {p : CodePoint} (hquote : p ≠ .char '\'') (hback : p ≠ .char '\\')
    (t : Text) : readQuoted (p :: t) = (readQuoted t).map fun r => (p :: r.1, r.2) := by
  rw [readQuoted.eq_def]
  dsimp only
  rw [if_neg hquote, if_neg hback]

/-- A text in quotes is read back: nothing in it ends it early. -/
theorem readQuoted_escapePoint (t rest : Text) :
    readQuoted (t.flatMap Literal.escapePoint ++ .char '\'' :: rest) = some (t, rest) := by
  induction t with
  | nil => exact readQuoted_quote rest
  | cons p t ih =>
    rw [List.flatMap_cons, List.append_assoc, Literal.escapePoint]
    by_cases h : p = .char '\\' ∨ p = .char '\''
    · rw [if_pos h, List.cons_append, List.cons_append, List.nil_append, readQuoted_backslash, ih]
      rfl
    · rw [if_neg h, List.cons_append, List.nil_append,
        readQuoted_cons (fun hp => h (.inr hp)) (fun hp => h (.inl hp)), ih]
      rfl

theorem number?_toString (n : Int) : number? (toString n : String) = some (.integer n) := by
  rw [number?, Text.ofString, Text.chars?_ofChars, Option.bind_some, integerOf?_toString]

theorem number?_text {x : Binary64} (hx : x.isFinite = true) :
    number? x.text = some (.decimal x.text.toList) := by
  obtain ⟨hdecimal, hinteger⟩ := x.isDecimal_text hx
  rw [number?, Text.ofString, Text.chars?_ofChars, Option.bind_some, hinteger]
  dsimp only
  rw [if_pos hdecimal]

theorem natural?_toString {n : Int} (hn : 0 ≤ n) : natural? (toString n : String) = some n := by
  rw [natural?, Text.ofString, Text.chars?_ofChars, Option.bind_some, toList_toString_int,
    if_pos hn, if_pos (isDigits_toDigits _), digitsValue_toDigits, Int.natAbs_of_nonneg hn]

theorem bare?_of_number? {t : Text} {c : Constant} (h : number? t = some c) : bare? t = some c := by
  rw [bare?, h]

/-- The characters of a numeral are neither a blank nor a quote. -/
theorem ne_of_isNumeralChar {s : String} (h : ∀ c ∈ s.toList, isNumeralChar c = true) :
    ∀ p ∈ (s : Text), p ≠ .char ' ' ∧ p ≠ .char '\'' := by
  intro p hp
  obtain ⟨c, hc, rfl⟩ := List.mem_map.mp hp
  have hchar := h c hc
  constructor <;> rintro ⟨⟩ <;> revert hchar <;> decide

/-- A constant that is a word is read up to the blank after it. -/
theorem readConstant_word {w t : Text} {c : Constant} (hbare : bare? w = some c)
    (hw : ∀ p ∈ w, p ≠ .char ' ' ∧ p ≠ .char '\'') (ht : EndsWord t) :
    readConstant (w ++ t) = some (c, t) := by
  obtain ⟨hword, hafter⟩ := word_append (fun p hp => (hw p hp).1) ht
  have hquote : after? "'" (w ++ t) = none := by
    have hhead : ∀ p ∈ (w ++ t).head?, p ≠ .char '\'' := by
      intro p hp
      cases w with
      | nil =>
        rw [ht p hp]
        decide
      | cons q w =>
        cases hp
        exact (hw p List.mem_cons_self).2
    cases hwt : w ++ t with
    | nil => rfl
    | cons q rest =>
      rw [hwt] at hhead
      exact if_neg (hhead q rfl).symm
  rw [readConstant, hquote]
  dsimp only
  rw [hword, hafter, hbare]
  rfl

theorem readConstant_render {l : Literal} (hl : l.IsFinite) {t : Text} (ht : EndsWord t) :
    readConstant (l.render ++ t) = some (l.constant, t) := by
  cases l with
  | integer n =>
    exact readConstant_word (bare?_of_number? (number?_toString n))
      (ne_of_isNumeralChar (isNumeralChar_toString n)) ht
  | decimal x =>
    have hx := hl x rfl
    exact readConstant_word (bare?_of_number? (number?_text hx))
      (ne_of_isNumeralChar (x.isNumeralChar_text hx)) ht
  | truth b => cases b <;> exact readConstant_word (by decide +kernel) (by decide +kernel) ht
  | quoted s =>
    have hrest : (Literal.quoted s).render ++ t =
        ("'" : Text) ++ (s.flatMap Literal.escapePoint ++ .char '\'' :: t) := by
      change _ = [CodePoint.char '\''] ++ _
      simp [Literal.render]
    rw [hrest, readConstant, after?_append]
    dsimp only
    rw [readQuoted_escapePoint]
    rfl

/-! ## Comparisons and order terms -/

/-- The predicate that a comparison stands for. -/
def Comparison.predicate (c : Comparison) : Predicate := ⟨c.code, c.literal.map Literal.constant⟩

theorem readComparison_render {c : Comparison} (hcode : IsCode c.code)
    (hl : ∀ l ∈ c.literal, l.IsFinite) {t : Text} (ht : EndsWord t) :
    readComparison (c.render ++ t) = some (c.predicate, t) := by
  obtain ⟨code, _ | l⟩ := c
  · have hcode : readCode (code ++ (" is null" ++ t)) = some (code, " is null" ++ t) :=
      readCode_append hcode (by rintro _ ⟨⟩; rfl)
    rw [Comparison.render, readComparison, List.append_assoc, hcode]
    simp [Comparison.predicate]
  · have hcode : readCode (code ++ (" = " ++ (l.render ++ t))) =
        some (code, " = " ++ (l.render ++ t)) := readCode_append hcode (by rintro _ ⟨⟩; rfl)
    have hnull : after? " is null" (" = " ++ (l.render ++ t)) = none := rfl
    rw [Comparison.render, readComparison, List.append_assoc, List.append_assoc, hcode]
    simp [hnull, readConstant_render (hl l rfl) ht, Comparison.predicate]

theorem readDirection_word (d : Direction) (t : Text) :
    readDirection (" " ++ (d.word ++ t)) = (some d, t) := by
  cases d
  · have h : after? " ASC" (" " ++ (Direction.ascending.word ++ t)) = some t := rfl
    rw [readDirection, h]
  · have hasc : after? " ASC" (" " ++ (Direction.descending.word ++ t)) = none := rfl
    have hdesc : after? " DESC" (" " ++ (Direction.descending.word ++ t)) = some t := rfl
    rw [readDirection, hasc, hdesc]

/-- An order term is read back if no direction follows it. -/
theorem readTerm_render {o : OrderTerm} (hcode : IsCode o.code) {t : Text} (ht : EndsCode t)
    (hdirection : readDirection t = (none, t)) : readTerm (o.render ++ t) = some (o, t) := by
  obtain ⟨code, _ | d⟩ := o
  · rw [OrderTerm.render, readTerm, readCode_append hcode ht]
    simp [hdirection]
  · have hcode : readCode (code ++ (" " ++ (d.word ++ t))) = some (code, " " ++ (d.word ++ t)) :=
      readCode_append hcode (by rintro _ ⟨⟩; rfl)
    rw [OrderTerm.render, readTerm, List.append_assoc, List.append_assoc, hcode]
    simp [readDirection_word]


/-! ## Parts with separators -/

section
variable {α β : Type} {part : Text → Option (β × Text)} {separator : Text} {render : α → Text}
  {value : α → β} (Ends : Text → Prop)

/-- Parts that are read back one by one, each before whatever may follow it, are read back with
separators between them. -/
theorem readMany_join (hne : separator ≠ []) (hseparator : ∀ t, Ends (separator ++ t))
    {as : List α} (has : as ≠ [])
    (hpart : ∀ a ∈ as, ∀ t, Ends t → part (render a ++ t) = some (value a, t))
    {t : Text} (ht : Ends t) (hend : after? separator t = none) :
    readMany part separator (Text.join separator (as.map render) ++ t) =
      some (as.map value, t) := by
  induction as with
  | nil => exact absurd rfl has
  | cons a as ih =>
    have hfirst := hpart a List.mem_cons_self
    cases as with
    | nil =>
      have hjoin : Text.join separator ([a].map render) = render a := by simp [Text.join]
      rw [hjoin, readMany, hfirst t ht]
      dsimp only
      rw [hend]
      rfl
    | cons b as =>
      have hrest := ih (by simp) fun a ha => hpart a (List.mem_cons_of_mem _ ha)
      have hjoin : Text.join separator ((a :: b :: as).map render) ++ t = render a ++
          (separator ++ (Text.join separator ((b :: as).map render) ++ t)) := by
        simp [Text.join, List.intercalate_cons_cons]
      have hlength : (Text.join separator ((b :: as).map render) ++ t).length < (render a ++
          (separator ++ (Text.join separator ((b :: as).map render) ++ t))).length := by
        have := List.length_pos_iff.mpr hne
        simp only [List.length_append]
        omega
      rw [hjoin, readMany, hfirst _ (hseparator _)]
      dsimp only
      rw [after?_append]
      dsimp only
      rw [if_pos hlength, hrest]
      rfl

end

/-! ## Clauses -/

/-- Whether two texts differ at a place that both have. -/
def differ : Text → Text → Bool
  | p :: s, q :: t => p ≠ q || differ s t
  | _, _ => false

theorem after?_of_differ {start u : Text} (h : differ start u = true) (t : Text) :
    after? start (u ++ t) = none := by
  induction start generalizing u with
  | nil => cases h
  | cons p start ih =>
    cases u with
    | nil => cases h
    | cons q u =>
      rw [List.cons_append, after?]
      split
      · rename_i hpq
        exact ih (by simpa [differ, hpq] using h)
      · rfl

theorem lead_keyword (keyword : String) (more : Text) :
    lead (keyword ++ " " ++ more) = (" " ++ keyword ++ " " : Text) ++ more := by
  rw [lead, if_neg (by simp [Text.ofString, Text.ofChars])]
  simp [Text.ofString, Text.ofChars]

theorem after?_lead (keyword : String) (more t : Text) :
    after? (" " ++ keyword ++ " ") (lead (keyword ++ " " ++ more) ++ t) = some (more ++ t) := by
  rw [lead_keyword, List.append_assoc _ more, after?_append]

/-- What may follow a clause: nothing, or a clause with one of the given keywords. -/
def Opens (keywords : List String) (t : Text) : Prop :=
  t = [] ∨ ∃ k ∈ keywords, ∃ more : Text, t = " " ++ k ++ " " ++ more

namespace Opens

variable {keywords : List String} {t : Text}

theorem endsWord (h : Opens keywords t) : EndsWord t := by
  rcases h with rfl | ⟨k, -, more, rfl⟩
  · rintro _ ⟨⟩
  · rintro _ ⟨⟩
    rfl

/-- A start that differs from all of these clauses does not stand here. -/
theorem after?_eq_none (h : Opens keywords t) {start : Text} (hne : start ≠ [])
    (hstart : ∀ k ∈ keywords, differ start (" " ++ k ++ " ") = true) : after? start t = none := by
  rcases h with rfl | ⟨k, hk, more, rfl⟩
  · cases start with
    | nil => exact absurd rfl hne
    | cons p start => rfl
  · exact after?_of_differ (hstart k hk) more

theorem lead_append (h : Opens keywords t) {k : String} {u : Text}
    (hu : u = [] ∨ ∃ more : Text, u = k ++ " " ++ more) : Opens (k :: keywords) (lead u ++ t) := by
  rcases hu with rfl | ⟨more, rfl⟩
  · rcases h with rfl | ⟨k, hk, h⟩
    · exact Or.inl rfl
    · exact Or.inr ⟨k, List.mem_cons_of_mem _ hk, h⟩
  · refine Or.inr ⟨k, List.mem_cons_self, more ++ t, ?_⟩
    rw [lead_keyword, List.append_assoc]

end Opens

theorem clause_cases (keyword separator : String) (parts : List Text) :
    Clauses.clause keyword separator parts = [] ∨
      ∃ more : Text, Clauses.clause keyword separator parts = keyword ++ " " ++ more := by
  rw [Clauses.clause]
  split
  · exact Or.inl rfl
  · exact Or.inr ⟨_, rfl⟩

theorem numberClause_cases (keyword : String) (n : Option Int) :
    Clauses.numberClause keyword n = [] ∨
      ∃ more : Text, Clauses.numberClause keyword n = keyword ++ " " ++ more := by
  cases n with
  | none => exact Or.inl rfl
  | some n => exact Or.inr ⟨_, rfl⟩

/-- A clause is read back if its parts are, and if it does not follow itself. -/
theorem readClause_lead {α β : Type} {part : Text → Option (β × Text)} {keyword separator : String}
    {render : α → Text} {value : α → β} {t : Text} {as : List α}
    (hmany : as ≠ [] →
      readMany part separator (Text.join separator (as.map render) ++ t) = some (as.map value, t))
    (habsent : after? (" " ++ keyword ++ " ") t = none) :
    readClause keyword separator part (lead (Clauses.clause keyword separator (as.map render)) ++ t) =
      some (as.map value, t) := by
  cases as with
  | nil =>
    change readClause keyword separator part t = _
    rw [readClause, habsent]
    rfl
  | cons a as =>
    rw [Clauses.clause, if_neg (by simp), readClause, after?_lead]
    exact hmany (by simp)

theorem readNumberClause_lead {keyword : String} {n : Option Int} (hn : ∀ m ∈ n, 0 ≤ m) {t : Text}
    (ht : EndsWord t) (habsent : after? (" " ++ keyword ++ " ") t = none) :
    readNumberClause keyword (lead (Clauses.numberClause keyword n) ++ t) = some (n, t) := by
  cases n with
  | none =>
    change readNumberClause keyword t = _
    rw [readNumberClause, habsent]
  | some n =>
    have hchars := ne_of_isNumeralChar (isNumeralChar_toString n)
    obtain ⟨hword, hafter⟩ := word_append (fun p hp => (hchars p hp).1) ht
    rw [Clauses.numberClause, readNumberClause, after?_lead]
    dsimp only
    rw [hword, hafter, natural?_toString (hn n rfl)]
    rfl

end RowStore.Query
