import Mathlib.Data.List.Infix
import RowStore.Proofs.Query.Tokenless

/-!
# Strings in queries with bracketed headers

A query is a sequence of strings, references to headers and other code points. Tokens are found without regard
to quotes, so a string is kept as it is only if no token begins in it.

* `Lexeme` : the parts of a query; `Lexeme.Becomes` : what they are to become;
* `StringsClear` : no token begins in a string; `scanned_lexemes_iff` : exactly then the tokens of a query are its
  references;
* `resolve_lexemes` : exactly then the references are replaced and the strings are kept;
* `resolve_rewrites_string` : strings that are not clear.
-/

namespace RowStore.Query.Bracket

/-- A part of a query. -/
inductive Lexeme
  /-- A string in single quotes, in whichever way a quote is written in one. -/
  | string (body : Text)
  /-- A header in brackets. -/
  | reference (name : Text) (named : name ≠ [] ∧ ∀ p ∈ name, p ≠ .char ']')
  /-- A code point of anything else. -/
  | other (p : CodePoint) (plain : p ≠ .char '[' ∧ p ≠ .char '\'')

namespace Lexeme

/-- How a part stands in the query. -/
def written : Lexeme → Text
  | string body => .char '\'' :: (body ++ [.char '\''])
  | reference name _ => .char '[' :: (name ++ [.char ']'])
  | other p _ => [p]

/-- The pieces that a part is meant to be taken apart into: only references are tokens. -/
def pieces : Lexeme → List Piece
  | reference name _ => [.token name]
  | l => l.written.map .point

/-- What a part is to become: a reference becomes the code of its header, and all else stays. -/
def Becomes (c : Columns) : Lexeme → Text → Prop
  | reference name _, t => Replaces c (.token name) t
  | l, t => t = l.written

end Lexeme

/-! ## Tokens in strings -/

/-- No token begins in a text that another one follows. -/
def NoneBegins (t after : Text) : Prop := ∀ s, s <:+ t → s ≠ [] → ¬ BeginsToken (s ++ after)

/-- No token begins in a string: it has none, and no bracket of it is closed after the string. -/
def StringsClear : List Lexeme → Prop
  | [] => True
  | .string body :: rest =>
    NoneBegins body (.char '\'' :: rest.flatMap Lexeme.written) ∧ StringsClear rest
  | _ :: rest => StringsClear rest

instance (t : Text) : Decidable (BeginsToken t) :=
  match t with
  | [] => isFalse not_beginsToken_nil
  | _ :: _ => decidable_of_iff' _ beginsToken_iff

instance (t after : Text) : Decidable (NoneBegins t after) :=
  decidable_of_iff (∀ s ∈ t.tails, s ≠ [] → ¬ BeginsToken (s ++ after)) <| by
    simp only [NoneBegins, List.mem_tails]

theorem noneBegins_nil (after : Text) : NoneBegins [] after :=
  fun _ hs hne => absurd (List.suffix_nil.mp hs) hne

theorem noneBegins_cons_iff {p : CodePoint} {t after : Text} :
    NoneBegins (p :: t) after ↔ ¬ BeginsToken (p :: (t ++ after)) ∧ NoneBegins t after := by
  simp only [NoneBegins, List.suffix_cons_iff, forall_eq_or_imp, ne_eq, reduceCtorEq, not_false_eq_true,
    forall_const, List.cons_append]

/-- No token begins at a code point other than an opening bracket. -/
theorem noneBegins_singleton {p : CodePoint} (hp : p ≠ .char '[') (after : Text) : NoneBegins [p] after :=
  noneBegins_cons_iff.mpr ⟨fun h => hp (beginsToken_iff.mp h).1, noneBegins_nil after⟩

theorem noneBegins_append_iff {t u after : Text} :
    NoneBegins (t ++ u) after ↔ NoneBegins t (u ++ after) ∧ NoneBegins u after := by
  induction t with
  | nil => simp only [List.nil_append, noneBegins_nil, true_and]
  | cons p t ih => rw [List.cons_append, noneBegins_cons_iff, noneBegins_cons_iff, ih, List.append_assoc,
      and_assoc]

/-- A code point is a piece of its own where no token begins at it. -/
theorem scanned_point_iff {p q : CodePoint} {t : Text} {ps : List Piece} :
    Scanned (p :: t) (.point q :: ps) ↔ q = p ∧ ¬ BeginsToken (p :: t) ∧ Scanned t ps := by
  constructor
  · intro h
    cases h with
    | point hnone hrest => exact ⟨rfl, hnone, hrest⟩
  · rintro ⟨rfl, hnone, hrest⟩
    exact .point hnone hrest

/-- Code points are pieces of their own exactly where no token begins among them. -/
theorem scanned_points_iff {t after : Text} {ps : List Piece} :
    Scanned (t ++ after) (t.map .point ++ ps) ↔ NoneBegins t after ∧ Scanned after ps := by
  induction t with
  | nil => simp only [List.nil_append, List.map_nil, noneBegins_nil, true_and]
  | cons p t ih =>
    rw [noneBegins_cons_iff, and_assoc, ← ih]
    exact scanned_point_iff.trans (and_iff_right rfl)

/-- After a token a text is taken apart as it would be on its own. -/
theorem scanned_token_iff {name after : Text} {ps : List Piece}
    (named : name ≠ [] ∧ ∀ p ∈ name, p ≠ .char ']') :
    Scanned (.char '[' :: (name ++ .char ']' :: after)) (.token name :: ps) ↔ Scanned after ps := by
  refine ⟨fun h => ?_, fun h => .token named.1 named.2 h⟩
  have hunique := h.unique (.token named.1 named.2 (scanned_pieces after))
  rw [← List.tail_eq_of_cons_eq hunique]
  exact scanned_pieces after

/-- A string is taken apart into its code points exactly where no token begins in it. -/
theorem noneBegins_string_iff {body after : Text} :
    NoneBegins (.char '\'' :: (body ++ [.char '\''])) after ↔ NoneBegins body (.char '\'' :: after) := by
  have hquote : ∀ after, NoneBegins [.char '\''] after := noneBegins_singleton (by decide)
  rw [← List.singleton_append, noneBegins_append_iff, noneBegins_append_iff]
  exact ⟨fun h => h.2.1, fun h => ⟨hquote _, h, hquote _⟩⟩

/-- The tokens of a query are its references exactly where no token begins in a string. -/
theorem scanned_lexemes_iff {lexemes : List Lexeme} :
    Scanned (lexemes.flatMap Lexeme.written) (lexemes.flatMap Lexeme.pieces) ↔ StringsClear lexemes := by
  induction lexemes with
  | nil => exact iff_of_true .nil trivial
  | cons l rest ih =>
    rw [List.flatMap_cons, List.flatMap_cons]
    cases l with
    | string body =>
      rw [Lexeme.pieces, scanned_points_iff, ih]
      · exact and_congr_left' noneBegins_string_iff
      · nofun
    | reference name named =>
      rw [Lexeme.written, List.cons_append, List.append_assoc, List.singleton_append]
      exact (scanned_token_iff named).trans ih
    | other p plain =>
      rw [Lexeme.pieces, scanned_points_iff, ih]
      · exact and_iff_right (noneBegins_singleton plain.1 _)
      · nofun

/-! ## What becomes of a query -/

variable {c : Columns} {lexemes : List Lexeme}

theorem token_mem_iff {name : Text} :
    .token name ∈ lexemes.flatMap Lexeme.pieces ↔ ∃ named, .reference name named ∈ lexemes := by
  have hpoints : ∀ {l : Lexeme}, l.pieces = l.written.map .point → .token name ∉ l.pieces := by
    intro l hl hmem
    rw [hl] at hmem
    simp at hmem
  constructor
  · intro h
    obtain ⟨l, hl, hmem⟩ := List.mem_flatMap.mp h
    cases l with
    | reference other named =>
      cases List.mem_singleton.mp hmem
      exact ⟨named, hl⟩
    | string body => exact absurd hmem (hpoints rfl)
    | other p plain => exact absurd hmem (hpoints rfl)
  · rintro ⟨named, hl⟩
    exact List.mem_flatMap.mpr ⟨_, hl, List.mem_singleton_self _⟩

/-- Code points are replaced by themselves. -/
theorem forall₂_replaces_points (t : Text) :
    List.Forall₂ (Replaces c) (t.map .point) (t.map fun p => [p]) := by
  rw [List.forall₂_map_left_iff, List.forall₂_map_right_iff, List.forall₂_same]
  exact fun p _ => .point p

theorem flatten_map_singleton (t : Text) : (t.map fun p => [p]).flatten = t := by
  rw [← List.flatMap_def, List.flatMap_singleton']

/-- Where the parts of a query become texts, their pieces are replaced by texts that come to the same. -/
theorem exists_replaces_pieces {texts : List Text} (h : List.Forall₂ (Lexeme.Becomes c) lexemes texts) :
    ∃ replaced, List.Forall₂ (Replaces c) (lexemes.flatMap Lexeme.pieces) replaced ∧
      replaced.flatten = texts.flatten := by
  induction h with
  | nil => exact ⟨[], .nil, rfl⟩
  | @cons l text lexemes texts hl _ ih =>
    obtain ⟨replaced, hreplaced, hsame⟩ := ih
    have hone : ∃ first, List.Forall₂ (Replaces c) l.pieces first ∧ first.flatten = text := by
      cases l with
      | reference name named => exact ⟨[text], .cons hl .nil, by simp⟩
      | string body =>
        cases hl
        exact ⟨_, forall₂_replaces_points _, flatten_map_singleton _⟩
      | other p plain =>
        cases hl
        exact ⟨_, forall₂_replaces_points _, flatten_map_singleton _⟩
    obtain ⟨first, hfirst, hflatten⟩ := hone
    refine ⟨first ++ replaced, List.rel_append hfirst hreplaced, ?_⟩
    rw [List.flatten_append, List.flatten_cons, hflatten, hsame]

/-- Where the text that stands for a query begins with code points of the query, none of them has been taken for
the start of a token. -/
theorem exists_points_of_flatten (hc : HasCodes c) {t after rest : Text} {ps : List Piece}
    {texts : List Text} (h : Scanned (t ++ after) ps) (htexts : List.Forall₂ (Replaces c) ps texts)
    (hsame : texts.flatten = t ++ rest) :
    ∃ ps' texts', ps = t.map .point ++ ps' ∧ List.Forall₂ (Replaces c) ps' texts' ∧
      texts'.flatten = rest := by
  induction t generalizing ps texts with
  | nil => exact ⟨ps, texts, rfl, htexts, hsame⟩
  | cons p t ih =>
    rw [List.cons_append] at h hsame
    cases htexts with
    | nil => cases hsame
    | @cons piece text ps texts hpiece htexts =>
      cases piece with
      | point q =>
        cases hpiece
        obtain ⟨rfl, -, hscanned⟩ := scanned_point_iff.mp h
        obtain ⟨ps', texts', rfl, htexts', hrest⟩ := ih hscanned htexts (List.tail_eq_of_cons_eq hsame)
        exact ⟨ps', texts', rfl, htexts', hrest⟩
      | token name =>
        -- a code does not begin as a token does
        obtain ⟨hne, hcapital⟩ := isCapital_of_replaces hc hpiece
        obtain ⟨q, code, rfl⟩ := List.exists_cons_of_ne_nil hne
        have hq : q = p := List.head_eq_of_cons_eq hsame
        have hp : p = .char '[' := by
          generalize ht : p :: (t ++ after) = whole at h
          cases h
          exact List.head_eq_of_cons_eq ht
        have hletter := hcapital q List.mem_cons_self
        rw [hq, hp] at hletter
        exact absurd hletter (by decide)

/-- If what stands for a query has its strings as they were, no token begins in them. -/
theorem stringsClear_of_flatten (hc : HasCodes c) (hd : Distinct c.list) {ps : List Piece}
    {replaced texts : List Text} (htexts : List.Forall₂ (Lexeme.Becomes c) lexemes texts)
    (h : Scanned (lexemes.flatMap Lexeme.written) ps) (hreplaced : List.Forall₂ (Replaces c) ps replaced)
    (hsame : replaced.flatten = texts.flatten) : StringsClear lexemes := by
  induction htexts generalizing ps replaced with
  | nil => trivial
  | @cons l text rest texts hl htexts ih =>
    rw [List.flatMap_cons] at h
    rw [List.flatten_cons] at hsame
    -- a part that is to stay is taken apart into its code points
    have hkept : text = l.written → NoneBegins l.written (rest.flatMap Lexeme.written) ∧
        StringsClear rest := by
      rintro rfl
      obtain ⟨ps', replaced', rfl, hreplaced', hrest⟩ := exists_points_of_flatten hc h hreplaced hsame
      obtain ⟨hnone, hscanned⟩ := scanned_points_iff.mp h
      exact ⟨hnone, ih hscanned hreplaced' hrest⟩
    cases l with
    | string body =>
      obtain ⟨hnone, hrest⟩ := hkept hl
      exact ⟨noneBegins_string_iff.mp hnone, hrest⟩
    | other p plain => exact (hkept hl).2
    | reference name named =>
      rw [Lexeme.written, List.cons_append, List.append_assoc, List.singleton_append] at h
      obtain rfl := (Scanned.token named.1 named.2 (scanned_pieces _)).unique h
      cases hreplaced with
      | cons hcode hreplaced =>
        rw [List.flatten_cons, rightUnique_replaces hd hcode hl] at hsame
        exact ih (scanned_pieces _) hreplaced (List.append_cancel_left hsame)

theorem hasHeader_of_replaces {name t : Text} (h : Replaces c (.token name) t) : HasHeader c name := by
  cases h with
  | token hcol hheader hcode => exact ⟨_, hcol, hheader⟩

/-- References that name headers have something to become. -/
theorem exists_becomes (hc : HasTextCodes c)
    (hknown : ∀ name named, .reference name named ∈ lexemes → HasHeader c name) :
    ∃ texts, List.Forall₂ (Lexeme.Becomes c) lexemes texts := by
  refine exists_forall₂_iff.mpr fun l hl => ?_
  cases l with
  | reference name named =>
    obtain ⟨text, -, htext⟩ := exists_replaces hc (p := .token name) fun other h =>
      Piece.token.inj h ▸ hknown name named hl
    exact ⟨text, htext⟩
  | string body => exact ⟨_, rfl⟩
  | other p plain => exact ⟨_, rfl⟩

/-- Where no token begins in a string, the references of a query are replaced by codes, and its strings and all
else stay as they are; it is refused only for a reference that names no header. Where the codes are words of
capital letters, no other query is translated in this way. -/
theorem resolve_lexemes (hempty : c.isEmpty = false) (hd : Distinct c.list) (hc : HasTextCodes c)
    (lexemes : List Lexeme) :
    ((∀ name named, .reference name named ∈ lexemes → HasHeader c name) →
      ∃ texts, List.Forall₂ (Lexeme.Becomes c) lexemes texts) ∧
    (StringsClear lexemes →
      (∀ texts, List.Forall₂ (Lexeme.Becomes c) lexemes texts →
        resolve (some c) (.text (lexemes.flatMap Lexeme.written)) = .ok texts.flatten) ∧
      ((∃ name named, .reference name named ∈ lexemes ∧ ¬ HasHeader c name) →
        ∃ name named, .reference name named ∈ lexemes ∧ ¬ HasHeader c name ∧
          resolve (some c) (.text (lexemes.flatMap Lexeme.written)) =
            .error (.bracket (.unknownHeader name c.headers)))) ∧
    (HasCodes c → ∀ texts, List.Forall₂ (Lexeme.Becomes c) lexemes texts →
      resolve (some c) (.text (lexemes.flatMap Lexeme.written)) = .ok texts.flatten →
        StringsClear lexemes) := by
  refine ⟨exists_becomes hc, fun hclear => ⟨fun texts htexts => ?_, fun hunknown => ?_⟩,
    fun hcodes texts htexts hresolve => ?_⟩
  · obtain ⟨replaced, hreplaced, hsame⟩ := exists_replaces_pieces htexts
    have hknown : ∀ name, .token name ∈ lexemes.flatMap Lexeme.pieces → HasHeader c name := by
      intro name hname
      obtain ⟨text, htext⟩ := exists_forall₂_iff.mp ⟨_, hreplaced⟩ _ hname
      exact hasHeader_of_replaces htext
    obtain ⟨found, hfound, hresolve⟩ :=
      resolve_of_known hempty hc (scanned_lexemes_iff.mpr hclear) hknown
    rw [hresolve, (rightUnique_replaces hd).forall₂ hfound hreplaced, hsame]
  · obtain ⟨name, named, hmem, hname⟩ := hunknown
    obtain ⟨before, first, after, hpieces, hbefore, hfirst⟩ :=
      exists_first_unknown ⟨name, token_mem_iff.mpr ⟨named, hmem⟩, hname⟩
    have hmem : .token first ∈ lexemes.flatMap Lexeme.pieces := by
      rw [hpieces]
      exact List.mem_append_right _ List.mem_cons_self
    obtain ⟨named, hmem⟩ := token_mem_iff.mp hmem
    have hscanned := scanned_lexemes_iff.mpr hclear
    rw [hpieces] at hscanned
    exact ⟨first, named, hmem, hfirst, resolve_of_unknown hempty hc hscanned hbefore hfirst⟩
  · obtain ⟨_, _, ps, replaced, ⟨⟩, ⟨⟩, -, hscanned, hreplaced, hsame⟩ :=
      exists_replaced (by rintro _ ⟨⟩; exact hc) hresolve
    exact stringsClear_of_flatten hcodes hd htexts hscanned hreplaced hsame.symm

/-- A query for the users with a name. -/
def usersNamed (body : Text) : List Lexeme :=
  [.reference "Name" (by decide), .other (.char '=') (by decide), .string body]

theorem distinct_sample : Distinct Sample.columns.list := ⟨by decide, by decide⟩

/-- What a query for users with a name is to become. -/
theorem becomes_usersNamed (body : Text) :
    List.Forall₂ (Lexeme.Becomes Sample.columns) (usersNamed body)
      ["B", "=", .char '\'' :: (body ++ [.char '\''])] := by
  have hname : ⟨.text "Name", .text "B", .string⟩ ∈ Sample.columns.list :=
    List.mem_cons_of_mem _ (List.mem_singleton_self _)
  exact .cons (.token hname rfl rfl) (.cons rfl (.cons rfl .nil))

/-- Brackets without a name, and closing ones, do no harm in a string. -/
theorem resolve_lexemes_brackets :
    Sample.columns.isEmpty = false ∧ Distinct Sample.columns.list ∧ HasTextCodes Sample.columns ∧
    StringsClear (usersNamed "]x[]") ∧
    resolve (some Sample.columns) (.text "[Name]=']x[]'") = .ok "B=']x[]'" := by
  have hclear : StringsClear (usersNamed "]x[]") := ⟨by decide, trivial⟩
  obtain ⟨-, htranslated, -⟩ := resolve_lexemes rfl distinct_sample hasCodes_sample.hasTextCodes
    (usersNamed "]x[]")
  exact ⟨rfl, distinct_sample, hasCodes_sample.hasTextCodes, hclear,
    (htranslated hclear).1 _ (becomes_usersNamed _)⟩

/-- A header in brackets that stands in a string is replaced all the same, and one that is not known makes the
query fail. -/
theorem resolve_rewrites_string :
    (∃ texts, List.Forall₂ (Lexeme.Becomes Sample.columns) (usersNamed "[id]") texts ∧
      texts.flatten = ("B='[id]'" : Text) ∧
      resolve (some Sample.columns) (.text ((usersNamed "[id]").flatMap Lexeme.written)) = .ok "B='A'" ∧
      ("B='A'" : Text) ≠ "B='[id]'") ∧
    resolve (some Sample.columns) (.text ((usersNamed "[x]").flatMap Lexeme.written)) =
      .error (.bracket (.unknownHeader "x" Sample.columns.headers)) := by
  refine ⟨⟨_, becomes_usersNamed _, by decide, ?_, by decide⟩, ?_⟩
  · change resolve (some Sample.columns) (.text "[Name]='[id]'") = _
    cbv
  · change resolve (some Sample.columns) (.text "[Name]='[x]'") = _
    cbv

end RowStore.Query.Bracket
