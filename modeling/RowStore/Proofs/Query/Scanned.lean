import Mathlib.Data.List.Forall2
import Mathlib.Data.List.TakeWhile
import RowStore.Proofs.Columns.Identifier
import RowStore.Proofs.Number.Written
import RowStore.Proofs.Query.Requested

/-!
# Queries with bracketed headers, token by token

* `Bracket.BeginsToken`, `Bracket.Scanned` : where a token begins, and the pieces of a text from left to right;
* `scanned_iff` : these are the pieces that a text is taken apart into; `Scanned.flatMap_written` : put together again
  they are the text;
* `Bracket.Replaces` : what stands for a piece once the headers have been replaced by codes;
* `resolve_of_known`, `resolve_of_unknown` : what becomes of a text whose tokens all name headers, and of one
  with a token that names none.
-/

namespace RowStore.Query.Bracket

/-! ## Tokens -/

/-- A text begins with a token: a bracket, a name of one or more characters other than a closing bracket, and a
closing bracket. -/
def BeginsToken (t : Text) : Prop :=
  ∃ name rest, name ≠ [] ∧ (∀ p ∈ name, p ≠ .char ']') ∧
    t = .char '[' :: (name ++ .char ']' :: rest)

/-- The pieces of a text from left to right: where a token begins it is one piece, and elsewhere every code
point is. -/
inductive Scanned : Text → List Piece → Prop
  | nil : Scanned [] []
  | token {name rest : Text} {ps : List Piece} (hsome : name ≠ []) (hname : ∀ p ∈ name, p ≠ .char ']')
      (hrest : Scanned rest ps) :
      Scanned (.char '[' :: (name ++ .char ']' :: rest)) (.token name :: ps)
  | point {p : CodePoint} {rest : Text} {ps : List Piece} (hnone : ¬ BeginsToken (p :: rest))
      (hrest : Scanned rest ps) : Scanned (p :: rest) (.point p :: ps)

/-- Up to the next closing bracket, a text is taken apart into a name and what follows. -/
theorem span_close {name : Text} (hname : ∀ p ∈ name, p ≠ .char ']') (rest : Text) :
    (name ++ CodePoint.char ']' :: rest).takeWhile (· ≠ .char ']') = name ∧
      (name ++ CodePoint.char ']' :: rest).dropWhile (· ≠ .char ']') = .char ']' :: rest :=
  span_append (fun p hp => decide_eq_true (hname p hp)) (by rintro _ ⟨⟩; rfl)

theorem tokenAfter?_eq_some_iff {t name rest : Text} : tokenAfter? t = some (name, rest) ↔
    name ≠ [] ∧ (∀ p ∈ name, p ≠ .char ']') ∧ t = name ++ .char ']' :: rest := by
  constructor
  · intro h
    unfold tokenAfter? at h
    split at h
    · cases h
    · rename_i q after hdrop
      have hclose : q = .char ']' := by
        have hhead := List.head?_dropWhile_not (· ≠ CodePoint.char ']') t
        rw [hdrop] at hhead
        simpa using hhead
      have hsplit := List.takeWhile_append_dropWhile (p := (· ≠ CodePoint.char ']')) (l := t)
      rw [hdrop, hclose] at hsplit
      obtain ⟨hsome, h⟩ := Option.ite_none_left_eq_some.mp h
      cases h
      refine ⟨mt List.isEmpty_iff.mpr hsome, fun p hp => ?_, hsplit.symm⟩
      exact of_decide_eq_true (List.mem_takeWhile_imp (p := fun q => decide (q ≠ CodePoint.char ']')) hp)
  · rintro ⟨hsome, hname, rfl⟩
    obtain ⟨htake, hdrop⟩ := span_close hname rest
    rw [tokenAfter?, hdrop, htake]
    exact if_neg (by simpa using hsome)

/-- The pieces of a text are those from left to right. -/
theorem scanned_pieces (t : Text) : Scanned t (pieces t) := by
  fun_induction pieces t with
  | case1 => exact .nil
  | case2 rest name after hfound ih =>
    obtain ⟨hsome, hname, rfl⟩ := tokenAfter?_eq_some_iff.mp hfound
    exact .token hsome hname ih
  | case3 rest hnone ih =>
    refine .point ?_ ih
    rintro ⟨name, after, hsome, hname, ht⟩
    rw [tokenAfter?_eq_some_iff.mpr ⟨hsome, hname, List.tail_eq_of_cons_eq ht⟩] at hnone
    cases hnone
  | case4 p rest hp ih =>
    refine .point ?_ ih
    rintro ⟨name, after, -, -, ht⟩
    exact hp (List.head_eq_of_cons_eq ht)

/-- A text is taken apart in one way. -/
theorem Scanned.unique {t : Text} {ps ps' : List Piece} (h : Scanned t ps) (h' : Scanned t ps') :
    ps' = ps := by
  induction h generalizing ps' with
  | nil =>
    cases h'
    rfl
  | @token name rest ps hsome hname hrest ih =>
    generalize ht : CodePoint.char '[' :: (name ++ .char ']' :: rest) = t at h'
    cases h' with
    | nil => cases ht
    | @token name' rest' ps' hsome' hname' hrest' =>
      have hsame := List.tail_eq_of_cons_eq ht
      obtain ⟨htake, hdrop⟩ := span_close hname rest
      obtain ⟨htake', hdrop'⟩ := span_close hname' rest'
      rw [hsame] at htake hdrop
      obtain rfl : name' = name := htake'.symm.trans htake
      obtain rfl : rest' = rest := List.tail_eq_of_cons_eq (hdrop'.symm.trans hdrop)
      rw [ih hrest']
    | point hnone hrest' => exact absurd ⟨name, rest, hsome, hname, ht.symm⟩ hnone
  | @point p rest ps hnone hrest ih =>
    cases h' with
    | token hsome hname hrest' => exact absurd ⟨_, _, hsome, hname, rfl⟩ hnone
    | point hnone' hrest' => rw [ih hrest']

theorem scanned_iff {t : Text} {ps : List Piece} : Scanned t ps ↔ ps = pieces t := by
  constructor
  · exact (scanned_pieces t).unique
  · rintro rfl
    exact scanned_pieces t

/-- How a piece stands in a text. -/
def Piece.written : Piece → Text
  | .point p => [p]
  | .token name => .char '[' :: (name ++ [.char ']'])

/-- Nothing of a text is lost. -/
theorem Scanned.flatMap_written {t : Text} {ps : List Piece} (h : Scanned t ps) :
    ps.flatMap Piece.written = t := by
  induction h with
  | nil => rfl
  | token hsome hname hrest ih => simp [Piece.written, ih]
  | point hnone hrest ih => simp [Piece.written, ih]

/-! ## Codes in the place of headers -/

variable {c : Columns}

/-- What a piece becomes: a code point stays, and a token becomes the code of the header that it names. -/
inductive Replaces (c : Columns) : Piece → Text → Prop
  | point (p : CodePoint) : Replaces c (.point p) [p]
  | token {col : Column} {name code : Text} (hcol : col ∈ c.list) (hheader : col.header = .text name)
      (hcode : col.code = .text code) : Replaces c (.token name) code

/-- Where no two headers are equal, there is one code for a token. -/
theorem rightUnique_replaces (hd : Distinct c.list) : Relator.RightUnique (Replaces c) := by
  intro p t t' h h'
  cases h with
  | point p =>
    cases h'
    rfl
  | @token col name code hcol hheader hcode =>
    cases h' with
    | @token col' _ code' hcol' hheader' hcode' =>
      obtain ⟨i, hi⟩ := List.mem_iff_getElem?.mp hcol
      obtain ⟨j, hj⟩ := List.mem_iff_getElem?.mp hcol'
      have hposition : ∀ {k : Nat} {col : Column}, c.list[k]? = some col → col.header = .text name →
          c.headers[k]? = some (.text name) := by
        intro k col hk hname
        rw [Columns.headers, List.getElem?_map, hk, Option.map_some, hname]
      obtain rfl : i = j := Columns.eq_of_headers hd (hposition hi hheader) (hposition hj hheader')
        (Value.equals_text_iff.mpr rfl)
      obtain rfl : col' = col := Option.some.inj (hj.symm.trans hi)
      rw [hcode] at hcode'
      cases hcode'
      rfl

/-- A header of the columns is this text. -/
def HasHeader (c : Columns) (name : Text) : Prop := ∃ col ∈ c.list, col.header = .text name

instance (c : Columns) (name : Text) : Decidable (HasHeader c name) :=
  decidable_of_iff (∃ col ∈ c.list, col.header.equals (.text name) = true) <| by
    simp only [HasHeader, Value.equals_text_iff]

/-- The code that is found for a name is the one of a column with this header. -/
theorem exists_of_findText?_codes {name : Text} {code : Value} (h : c.codes.findText? name = some code) :
    ∃ col ∈ c.list, col.header = .text name ∧ col.code = code := by
  obtain ⟨k, hk, heq⟩ := Entries.exists_of_find? h
  obtain ⟨col, hcol, hpair⟩ := List.mem_map.mp hk
  cases hpair
  exact ⟨col, hcol, Value.equals_text_iff.mp heq, rfl⟩

/-- A piece whose header is known is replaced. -/
theorem exists_replaces (hc : HasTextCodes c) {p : Piece}
    (hknown : ∀ name, p = .token name → HasHeader c name) :
    ∃ t, substitute c p = .ok (.text t) ∧ Replaces c p t := by
  cases p with
  | point p => exact ⟨[p], rfl, .point p⟩
  | token name =>
    obtain ⟨col, hcol, hheader⟩ := hknown name rfl
    cases hfind : c.codes.findText? name with
    | none =>
      have hne := Entries.find?_eq_none_iff.mp hfind _ (List.mem_map_of_mem hcol)
      rw [hheader, Value.equals_text_iff.mpr rfl] at hne
      cases hne
    | some code =>
      obtain ⟨found, hfound, hname, rfl⟩ := exists_of_findText?_codes hfind
      obtain ⟨t, ht⟩ := hc found hfound
      refine ⟨t, ?_, .token hfound hname ht⟩
      rw [substitute, codeOf, hfind, ht]

/-- A token that names no header is refused. -/
theorem substitute_of_unknown {name : Text} (h : ¬ HasHeader c name) :
    substitute c (.token name) = .error (.bracket (.unknownHeader name c.headers)) := by
  rw [substitute, codeOf]
  cases hfind : c.codes.findText? name with
  | none => rfl
  | some code =>
    obtain ⟨col, hcol, hheader, -⟩ := exists_of_findText?_codes hfind
    exact absurd ⟨col, hcol, hheader⟩ h

theorem mapM_substitute_of_known (hc : HasTextCodes c) {ps : List Piece}
    (hknown : ∀ name, .token name ∈ ps → HasHeader c name) :
    ∃ texts, List.Forall₂ (Replaces c) ps texts ∧ ps.mapM (substitute c) = .ok (texts.map .text) := by
  induction ps with
  | nil => exact ⟨[], .nil, rfl⟩
  | cons p rest ih =>
    obtain ⟨t, ht, hreplaces⟩ := exists_replaces hc fun name hp =>
      hknown name (hp ▸ List.mem_cons_self)
    obtain ⟨texts, htexts, hrest⟩ := ih fun name hname => hknown name (List.mem_cons_of_mem _ hname)
    refine ⟨t :: texts, .cons hreplaces htexts, ?_⟩
    rw [List.mapM_cons, ht, hrest]
    rfl

theorem joined_texts (texts : List Text) : joined (texts.map .text) = .ok texts.flatten := by
  have htexts : (texts.map Value.text).mapM Value.expectText = .ok texts := by
    induction texts with
    | nil => rfl
    | cons t rest ih =>
      rw [List.map_cons, List.mapM_cons, ih]
      rfl
  rw [joined, htexts]
  rfl

/-- A text whose tokens all name headers becomes the text with their codes in their places. -/
theorem resolve_of_known (hempty : c.isEmpty = false) (hc : HasTextCodes c) {t : Text} {ps : List Piece}
    (hps : Scanned t ps) (hknown : ∀ name, .token name ∈ ps → HasHeader c name) :
    ∃ texts, List.Forall₂ (Replaces c) ps texts ∧ resolve (some c) (.text t) = .ok texts.flatten := by
  obtain ⟨texts, hreplaces, hmap⟩ := mapM_substitute_of_known hc hknown
  refine ⟨texts, hreplaces, ?_⟩
  rw [scanned_iff.mp hps] at hmap
  rw [resolve, if_neg (by simp [hempty])]
  change (do joined (← (pieces t).mapM (substitute c))) = _
  rw [hmap]
  exact joined_texts texts

/-- A text with a token that names no header is refused for the first of them. -/
theorem resolve_of_unknown (hempty : c.isEmpty = false) (hc : HasTextCodes c) {t : Text}
    {before after : List Piece} {name : Text} (hps : Scanned t (before ++ .token name :: after))
    (hbefore : ∀ other, .token other ∈ before → HasHeader c other) (hname : ¬ HasHeader c name) :
    resolve (some c) (.text t) = .error (.bracket (.unknownHeader name c.headers)) := by
  obtain ⟨texts, -, hmap⟩ := mapM_substitute_of_known hc hbefore
  rw [resolve, if_neg (by simp [hempty])]
  change (do joined (← (pieces t).mapM (substitute c))) = _
  rw [← scanned_iff.mp hps, List.mapM_append, hmap, List.mapM_cons, substitute_of_unknown hname]
  rfl

/-- Among tokens of which not all name headers there is a first one that names none. -/
theorem exists_first_unknown {ps : List Piece} (h : ∃ name, .token name ∈ ps ∧ ¬ HasHeader c name) :
    ∃ before name after, ps = before ++ .token name :: after ∧
      (∀ other, .token other ∈ before → HasHeader c other) ∧ ¬ HasHeader c name := by
  classical
  obtain ⟨name, hmem, hname⟩ := h
  obtain ⟨p, hfind⟩ := Option.isSome_iff_exists.mp <|
    List.find?_isSome (p := fun p : Piece => ∃ name, p = .token name ∧ ¬ HasHeader c name).mpr
      ⟨_, hmem, decide_eq_true ⟨name, rfl, hname⟩⟩
  obtain ⟨hfirst, before, after, rfl, hbefore⟩ := List.find?_eq_some_iff_append.mp hfind
  obtain ⟨first, rfl, hunknown⟩ := of_decide_eq_true hfirst
  refine ⟨before, first, after, rfl, fun other hother => ?_, hunknown⟩
  by_contra hother'
  have hknown := hbefore _ hother
  rw [Bool.not_eq_true', decide_eq_false_iff_not] at hknown
  exact hknown ⟨other, rfl, hother'⟩

end RowStore.Query.Bracket
