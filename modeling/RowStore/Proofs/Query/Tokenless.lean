import RowStore.Proofs.Query.Scanned
import RowStore.Proofs.Table.Sample

/-!
# Translated queries

A code has no brackets, so a bracket of the translated text stood in the query, too, and it begins no token
there unless it began one in the query.

* `beginsToken_iff` : where a token begins;
* `IsTokenless` : nowhere in a text does a token begin; `IsTokenless.resolve` : such a text is its own
  translation;
* `Scanned.isTokenless` : with words of capital letters in the places of its tokens a text is tokenless;
* `resolve_again` : a translated query is tokenless, and translating it again leaves it as it is.
-/

namespace RowStore.Query.Bracket

/-! ## Texts without tokens -/

/-- A token begins at an opening bracket after which there is a closing one, but not at once. -/
theorem beginsToken_iff {p : CodePoint} {t : Text} : BeginsToken (p :: t) ↔
    p = .char '[' ∧ t.head? ≠ some (.char ']') ∧ .char ']' ∈ t := by
  constructor
  · rintro ⟨name, rest, hsome, hname, ht⟩
    obtain ⟨rfl, rfl⟩ := List.cons.inj ht
    obtain ⟨q, more, rfl⟩ := List.exists_cons_of_ne_nil hsome
    refine ⟨rfl, fun hclose => ?_, List.mem_append_right _ List.mem_cons_self⟩
    exact hname q List.mem_cons_self (Option.some.inj hclose)
  · rintro ⟨rfl, hhead, hmem⟩
    obtain ⟨name, rest, rfl, hname⟩ := List.eq_append_cons_of_mem hmem
    refine ⟨name, rest, ?_, fun p hp heq => hname (heq ▸ hp), rfl⟩
    rintro rfl
    exact hhead rfl

theorem not_beginsToken_nil : ¬ BeginsToken [] := fun ⟨_, _, _, _, h⟩ => nomatch h

/-- Nowhere in a text does a token begin. -/
def IsTokenless (t : Text) : Prop := ∀ s, s <:+ t → ¬ BeginsToken s

theorem isTokenless_nil : IsTokenless [] := by
  intro s hs
  rw [List.suffix_nil.mp hs]
  exact not_beginsToken_nil

theorem isTokenless_cons_iff {p : CodePoint} {t : Text} :
    IsTokenless (p :: t) ↔ ¬ BeginsToken (p :: t) ∧ IsTokenless t := by
  simp only [IsTokenless, List.suffix_cons_iff, forall_eq_or_imp]

/-- Code points other than an opening bracket may stand before a tokenless text. -/
theorem IsTokenless.append {t : Text} (ht : IsTokenless t) {start : Text}
    (hstart : ∀ p ∈ start, p ≠ .char '[') : IsTokenless (start ++ t) := by
  induction start with
  | nil => exact ht
  | cons p start ih =>
    obtain ⟨hp, hstart⟩ := List.forall_mem_cons.mp hstart
    exact isTokenless_cons_iff.mpr ⟨fun hbegins => hp (beginsToken_iff.mp hbegins).1, ih hstart⟩

/-- A tokenless text is taken apart into its code points. -/
theorem IsTokenless.scanned {t : Text} (h : IsTokenless t) : Scanned t (t.map .point) := by
  induction t with
  | nil => exact .nil
  | cons p t ih =>
    obtain ⟨hp, ht⟩ := isTokenless_cons_iff.mp h
    exact .point hp (ih ht)

variable {c : Columns}

/-- A tokenless text is its own translation. -/
theorem IsTokenless.resolve {t : Text} (h : IsTokenless t) (hempty : c.isEmpty = false)
    (hc : HasTextCodes c) : resolve (some c) (.text t) = .ok t := by
  obtain ⟨texts, htexts, hresolve⟩ := resolve_of_known hempty hc h.scanned fun name hname =>
    absurd hname (by simp)
  have hpoints : ∀ {points : Text} {texts : List Text},
      List.Forall₂ (Replaces c) (points.map .point) texts → texts.flatten = points := by
    intro points
    induction points with
    | nil =>
      rintro _ ⟨⟩
      rfl
    | cons p points ih =>
      rintro _ (_ | ⟨⟨_⟩, hrest⟩)
      exact congrArg (p :: ·) (ih hrest)
  rw [hresolve, hpoints htexts]

/-! ## Codes in the places of tokens -/

/-- A code point in a code is a capital letter. -/
theorem isCapital_of_replaces (hc : HasCodes c) {name t : Text} (h : Replaces c (.token name) t) :
    t ≠ [] ∧ ∀ p ∈ t, p.isOf Column.isCapital = true := by
  cases h with
  | token hcol hheader hcode =>
    obtain ⟨word, ⟨cs, hsome, hcapitals, rfl⟩, hword⟩ := hc _ hcol
    cases hcode.symm.trans hword
    refine ⟨by simpa [Text.ofChars] using hsome, fun p hp => ?_⟩
    obtain ⟨ch, hch, rfl⟩ := List.mem_map.mp hp
    exact hcapitals ch hch

/-- A code point of the translated text that is no capital letter stood in the query. -/
theorem mem_of_mem_flatten (hc : HasCodes c) {t : Text} {ps : List Piece} {texts : List Text}
    (h : Scanned t ps) (htexts : List.Forall₂ (Replaces c) ps texts) {p : CodePoint}
    (hp : p.isOf Column.isCapital = false) (hmem : p ∈ texts.flatten) : p ∈ t := by
  rw [← h.flatMap_written]
  clear h
  induction htexts with
  | nil => exact absurd hmem List.not_mem_nil
  | @cons piece text ps texts hpiece _ ih =>
    rw [List.flatMap_cons]
    rcases List.mem_append.mp hmem with hmem | hmem
    · refine List.mem_append_left _ ?_
      cases piece with
      | point q =>
        cases hpiece
        exact hmem
      | token name =>
        rw [(isCapital_of_replaces hc hpiece).2 p hmem] at hp
        cases hp
    · exact List.mem_append_right _ (ih hmem)

/-- Where a query goes on with a closing bracket, so does its translation. -/
theorem head?_flatten {t : Text} {ps : List Piece} {texts : List Text} (h : Scanned t ps)
    (htexts : List.Forall₂ (Replaces c) ps texts) (hhead : t.head? = some (.char ']')) :
    texts.flatten.head? = some (.char ']') := by
  cases h with
  | nil => cases hhead
  | token => cases hhead
  | point hnone hrest =>
    cases htexts with
    | cons hpiece _ =>
      cases hpiece
      exact hhead

/-- With codes in the places of its tokens a text is tokenless. -/
theorem Scanned.isTokenless (hc : HasCodes c) {t : Text} {ps : List Piece} {texts : List Text}
    (h : Scanned t ps) (htexts : List.Forall₂ (Replaces c) ps texts) : IsTokenless texts.flatten := by
  induction h generalizing texts with
  | nil =>
    cases htexts
    exact isTokenless_nil
  | token hsome hname hrest ih =>
    cases htexts with
    | cons hcode htexts =>
      refine (ih htexts).append fun p hp hopen => ?_
      have hcapital := (isCapital_of_replaces hc hcode).2 p hp
      rw [hopen] at hcapital
      exact absurd hcapital (by decide)
  | @point p rest ps hnone hrest ih =>
    cases htexts with
    | cons hpiece htexts =>
      cases hpiece
      refine isTokenless_cons_iff.mpr ⟨fun hbegins => hnone ?_, ih htexts⟩
      -- what would follow the bracket in the translation follows it in the query
      obtain ⟨hopen, hhead, hmem⟩ := beginsToken_iff.mp hbegins
      exact beginsToken_iff.mpr ⟨hopen, mt (head?_flatten hrest htexts) hhead,
        mem_of_mem_flatten hc hrest htexts rfl hmem⟩

/-- What a query is translated to: a text whose tokens all name headers, with their codes in their places. -/
theorem exists_replaced {query : Value} {t : Text} {columns : Option Columns}
    (hc : ∀ c, columns = some c → HasTextCodes c) (h : resolve columns query = .ok t) :
    ∃ c q ps texts, columns = some c ∧ query = .text q ∧ c.isEmpty = false ∧ Scanned q ps ∧
      List.Forall₂ (Replaces c) ps texts ∧ t = texts.flatten := by
  cases columns with
  | none => cases h
  | some c =>
    have hcodes := hc c rfl
    have hempty : c.isEmpty = false := by
      by_contra hempty
      rw [Bool.not_eq_false] at hempty
      rw [resolve, if_pos hempty] at h
      cases h
    cases query with
    | text q =>
      have hscanned := scanned_pieces q
      by_cases hknown : ∀ name, .token name ∈ pieces q → HasHeader c name
      · obtain ⟨texts, htexts, hresolve⟩ := resolve_of_known hempty hcodes hscanned hknown
        refine ⟨c, q, pieces q, texts, rfl, rfl, hempty, hscanned, htexts, ?_⟩
        exact Except.ok.inj (h.symm.trans hresolve)
      · have hunknown : ∃ name, .token name ∈ pieces q ∧ ¬ HasHeader c name := by simpa using hknown
        obtain ⟨before, name, after, hps, hbefore, hname⟩ := exists_first_unknown hunknown
        rw [hps] at hscanned
        rw [resolve_of_unknown hempty hcodes hscanned hbefore hname] at h
        cases h
    | _ =>
      rw [resolve, if_neg (by simp [hempty])] at h
      cases h

/-- A translated query has no tokens, and translating it again leaves it as it is. -/
theorem resolve_again {columns : Option Columns} {query : Value} {t : Text}
    (hc : ∀ c, columns = some c → HasCodes c) (h : resolve columns query = .ok t) :
    IsTokenless t ∧ pieces t = t.map .point ∧ resolve columns (.text t) = .ok t := by
  obtain ⟨c, q, ps, texts, rfl, rfl, hempty, hscanned, htexts, rfl⟩ :=
    exists_replaced (fun c hcolumns => (hc c hcolumns).hasTextCodes) h
  have htokenless := hscanned.isTokenless (hc c rfl) htexts
  exact ⟨htokenless, (scanned_iff.mp htokenless.scanned).symm,
    htokenless.resolve hempty (hc c rfl).hasTextCodes⟩

/-- The codes of the sample columns are capital letters. -/
theorem hasCodes_sample : HasCodes Sample.columns := by
  have hletter : ∀ letter : Char, Column.isCapital letter = true → IsCode [.char letter] :=
    fun letter h => ⟨[letter], List.cons_ne_nil _ _, List.forall_mem_singleton.mpr h, rfl⟩
  exact List.forall_mem_cons.mpr ⟨⟨_, hletter 'A' rfl, rfl⟩,
    List.forall_mem_singleton.mpr ⟨_, hletter 'B' rfl, rfl⟩⟩

/-- Brackets without a name and brackets that are not closed stay beside a token. -/
theorem resolve_again_unbalanced :
    HasCodes Sample.columns ∧
    resolve (some Sample.columns) (.text "[][Name]]=[") = .ok "[]B]=[" ∧
    IsTokenless "[]B]=[" ∧ resolve (some Sample.columns) (.text "[]B]=[") = .ok "[]B]=[" := by
  have hresolve : resolve (some Sample.columns) (.text "[][Name]]=[") = .ok "[]B]=[" := by cbv
  obtain ⟨htokenless, -, hagain⟩ := resolve_again (by rintro _ ⟨⟩; exact hasCodes_sample) hresolve
  exact ⟨hasCodes_sample, hresolve, htokenless, hagain⟩

end RowStore.Query.Bracket
