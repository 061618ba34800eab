import RowStore.Proofs.Json.Strings
import RowStore.Proofs.Number.Written
import RowStore.Proofs.Text.Split

/-!
# Writing JSON documents

* `Json.Document` : what a text of JSON may hold, doubles apart; its texts are joined and its
  integers have numerals that are not too long;
* `Document.write` : the text of a document on one line, with a blank after every comma and colon;
* `Document.reads` : the reader takes a written document off the start of a text, given as much fuel
  as it is long;
* `Document.read?_write` : the reader gives a written document back.
-/

namespace RowStore

/-- A text of characters has no halves to join. -/
theorem Text.joined_ofChars (cs : List Char) : (Text.ofChars cs).Joined := by
  induction cs with
  | nil => exact List.IsChain.nil
  | cons c cs ih =>
    cases cs with
    | nil => exact List.IsChain.singleton _
    | cons d cs => exact List.IsChain.cons_cons (fun h => absurd h.1 Bool.false_ne_true) ih

namespace Json

/-- A text that a string literal can hold. -/
structure Str where
  text : Text
  joined : text.Joined

/-- The text of a list of characters. -/
def Str.ofChars (cs : List Char) : Str := ⟨Text.ofChars cs, Text.joined_ofChars cs⟩

instance : Coe String Str := ⟨fun s => Str.ofChars s.toList⟩

/-- A document without doubles. -/
inductive Document
  | null
  | bool (b : Bool)
  | int (n : Int) (short : hasNumeral n = true)
  | text (s : Str)
  | list (items : List Document)
  | object (members : List (Str × Document))

namespace Document

mutual

/-- The text of a document. -/
def write : Document → Text
  | null => "null"
  | bool b => if b then "true" else "false"
  | int n _ => toString n
  | text s => writeString s.text
  | list items => .char '[' :: (Text.join ", " (writeItems items) ++ [.char ']'])
  | object members => .char '\x7b' :: (Text.join ", " (writeMembers members) ++ [.char '\x7d'])

def writeItems : List Document → List Text
  | [] => []
  | d :: rest => write d :: writeItems rest

def writeMembers : List (Str × Document) → List Text
  | [] => []
  | (name, d) :: rest => (writeString name.text ++ ": " ++ write d) :: writeMembers rest

end

mutual

/-- The value that a document stands for. -/
def value : Document → Value
  | null => .null
  | bool b => .bool b
  | int n _ => .int n
  | text s => .text s.text
  | list items => .list (values items)
  | object members => .mapping (Entries.ofList (memberValues members))

def values : List Document → List Value
  | [] => []
  | d :: rest => value d :: values rest

def memberValues : List (Str × Document) → List (Value × Value)
  | [] => []
  | (name, d) :: rest => (.text name.text, value d) :: memberValues rest

end

theorem values_eq_map (items : List Document) : values items = items.map value := by
  induction items with
  | nil => rfl
  | cons d rest ih => rw [values, ih, List.map_cons]

end Document

/-! ## What begins a document, and what may follow a numeral -/

/-- The characters that a document may begin with. -/
def isStart (c : Char) : Bool := ['"', '[', '\x7b', '-', 'n', 't', 'f'].contains c || c.isDigit

/-- A text that begins a document. -/
def Begins (t : Text) : Prop := ∃ c rest, t = .char c :: rest ∧ isStart c = true

/-- What may follow a numeral: nothing, or what cannot be a part of it. -/
def EndsNumeral (t : Text) : Prop :=
  ∀ p ∈ t.head?, p.isOf (fun c => c.isDigit || ['.', 'e', 'E'].contains c) = false

theorem begins_writeString (t : Text) : Begins (writeString t) := ⟨'"', _, rfl, rfl⟩

theorem ne_of_isDigit_of_not {c d : Char} (hc : c.isDigit = true) (hd : d.isDigit = false) :
    c ≠ d := by
  intro h
  rw [h, hd] at hc
  cases hc

/-- A numeral begins with a digit, or with a minus sign before one. -/
theorem exists_toString (n : Int) : ∃ c digits, c.isDigit = true ∧
    (((toString n : String) : Text) = .char c :: Text.ofChars digits ∨
      ((toString n : String) : Text) = .char '-' :: .char c :: Text.ofChars digits) := by
  obtain ⟨c, digits, hdigits, -⟩ := exists_cons_of_isDigits (isDigits_toDigits n.natAbs)
  refine ⟨c, digits, isDigit_toDigits (hdigits ▸ List.mem_cons_self), ?_⟩
  rw [Text.ofString, toList_toString_int, hdigits]
  split
  · exact Or.inl rfl
  · exact Or.inr rfl

theorem begins_toString (n : Int) : Begins (toString n : String) := by
  obtain ⟨c, digits, hc, h | h⟩ := exists_toString n
  · exact ⟨c, _, h, by rw [isStart, hc, Bool.or_true]⟩
  · exact ⟨'-', _, h, rfl⟩

theorem begins_write (d : Document) : Begins d.write := by
  cases d with
  | null => exact ⟨'n', _, rfl, rfl⟩
  | bool b => cases b <;> exact ⟨_, _, rfl, rfl⟩
  | int n short => exact begins_toString n
  | text s => exact begins_writeString s.text
  | list items => exact ⟨'[', _, rfl, rfl⟩
  | object members => exact ⟨'\x7b', _, rfl, rfl⟩

theorem Begins.append {t : Text} (h : Begins t) (u : Text) : Begins (t ++ u) := by
  obtain ⟨c, rest, rfl, hc⟩ := h
  exact ⟨c, rest ++ u, rfl, hc⟩

/-- The characters that begin a document are no white space and close no bracket. -/
theorem not_of_isStart {c : Char} (h : isStart c = true) :
    isSpace c = false ∧ c ≠ ']' ∧ c ≠ '\x7d' := by
  refine ⟨Bool.eq_false_iff.mpr fun hspace => ?_, ?_, ?_⟩
  · simp only [isSpace, Bool.or_eq_true, beq_iff_eq] at hspace
    rcases hspace with ((rfl | rfl) | rfl) | rfl <;> revert h <;> decide
  · rintro rfl
    revert h
    decide
  · rintro rfl
    revert h
    decide

theorem Begins.skip_eq {t : Text} (h : Begins t) : skip t = t := by
  obtain ⟨c, rest, rfl, hc⟩ := h
  rw [skip, List.dropWhile_cons_of_neg]
  simpa [CodePoint.isOf] using (not_of_isStart hc).1

/-! ## Numerals -/

/-- The digits of a positive number do not begin with a zero. -/
theorem head?_toDigits {n : Nat} (h : n ≠ 0) : (Nat.toDigits 10 n).head? ≠ some '0' := by
  induction n using Nat.strongRecOn with
  | ind n ih =>
    by_cases hn : n < 10
    · rw [Nat.toDigits_of_lt_base hn]
      have hall : ∀ d < 10, d ≠ 0 → [Nat.digitChar d].head? ≠ some '0' := by decide
      exact hall n hn h
    · have hlt : n / 10 < n := Nat.div_lt_self (by omega) (by decide)
      have hrest := ih (n / 10) hlt (by omega)
      rw [Nat.toDigits_of_base_le (by decide) (by omega), List.head?_append_of_ne_nil]
      · exact hrest
      · exact Nat.toDigits_ne_nil

theorem scanWhole?_toDigits (n : Nat) {rest : Text} (hrest : EndsNumeral rest) :
    scanWhole? (Text.ofChars (Nat.toDigits 10 n) ++ rest) = some (Nat.toDigits 10 n, rest) := by
  by_cases hn : n = 0
  · subst hn
    rfl
  · have hends : ∀ q ∈ rest.head?, q.isOf Char.isDigit = false := by
      intro q hq
      have h := hrest q hq
      cases q with
      | half _ => rfl
      | char c => exact (Bool.or_eq_false_iff.mp h).1
    have hspan := Text.span_ofChars (fun c hc => isDigit_toDigits (n := n) hc) hends
    have hhead := head?_toDigits hn
    obtain ⟨c, digits, hdigits, -⟩ := exists_cons_of_isDigits (isDigits_toDigits n)
    rw [hdigits] at hspan hhead ⊢
    rw [scanWhole?]
    · rw [hspan]
    · intro more h
      cases h
      exact hhead rfl

theorem scanFraction_of_ends {rest : Text} (h : EndsNumeral rest) : scanFraction rest = ([], rest) := by
  rw [scanFraction.eq_def]
  split
  · exact absurd (h _ rfl) (by decide)
  · rfl

theorem scanExponent_of_ends {rest : Text} (h : EndsNumeral rest) :
    scanExponent rest = (none, rest) := by
  rw [scanExponent.eq_def]
  split
  · rename_i c more
    have hc := h _ rfl
    simp only [CodePoint.isOf, Bool.or_eq_false_iff] at hc
    rw [if_neg]
    rintro (rfl | rfl)
    · exact absurd hc.2 (by decide)
    · exact absurd hc.2 (by decide)
  · rfl

theorem scanUnsigned?_toDigits (negative : Bool) {n : Nat} (h : n < 10 ^ longestNumeral)
    {rest : Text} (hrest : EndsNumeral rest) :
    scanUnsigned? negative (Text.ofChars (Nat.toDigits 10 n) ++ rest) =
      some (.int (if negative then -(n : Int) else n), rest) := by
  rw [scanUnsigned?, scanWhole?_toDigits n hrest]
  simp [scanFraction_of_ends hrest, scanExponent_of_ends hrest, readDigits?_toDigits negative h]

theorem scanNumber?_toString {n : Int} (h : hasNumeral n = true) {rest : Text}
    (hrest : EndsNumeral rest) :
    scanNumber? ((toString n : String) ++ rest) = some (.int n, rest) := by
  have hn : n.natAbs < 10 ^ longestNumeral := hasNumeral_iff.mp h
  rw [Text.ofString, toList_toString_int]
  split
  · rename_i hpos
    have hscan := scanUnsigned?_toDigits false hn hrest
    obtain ⟨c, digits, hdigits, hc⟩ := exists_cons_of_isDigits (isDigits_toDigits n.natAbs)
    rw [hdigits] at hscan ⊢
    rw [scanNumber?, hscan, if_neg (by decide), Int.natAbs_of_nonneg hpos]
    intro more hmore
    cases hmore
    exact hc rfl
  · have hscan := scanUnsigned?_toDigits true hn hrest
    change scanUnsigned? true (Text.ofChars (Nat.toDigits 10 n.natAbs) ++ rest) = _
    rw [hscan, if_pos rfl, Int.ofNat_natAbs_of_nonpos (by omega), Int.neg_neg]

/-- A word does not stand where a text begins with another character. -/
theorem isPrefixOf_of_ne {c d : Char} (h : c ≠ d) (word t : Text) :
    (CodePoint.char c :: word).isPrefixOf (.char d :: t) = false := by
  simp [List.isPrefixOf, h]

theorem scanWord?_eq_none {t : Text} (h : ∀ w ∈ words, w.1.isPrefixOf t = false) :
    scanWord? t = none := by
  rw [scanWord?, List.findSome?_eq_none_iff]
  intro w hw
  simp [h w hw]

/-- No word is the start of a numeral. -/
theorem scanWord?_toString (n : Int) (rest : Text) :
    scanWord? ((toString n : String) ++ rest) = none := by
  obtain ⟨c, digits, hc, h⟩ := exists_toString n
  have hne : ∀ d : Char, d.isDigit = false → d ≠ c := fun _ hd => (ne_of_isDigit_of_not hc hd).symm
  apply scanWord?_eq_none
  simp only [words, List.forall_mem_cons]
  rcases h with h | h
  · rw [h]
    exact ⟨isPrefixOf_of_ne (hne 'n' rfl) _ _, isPrefixOf_of_ne (hne 't' rfl) _ _,
      isPrefixOf_of_ne (hne 'f' rfl) _ _, isPrefixOf_of_ne (hne 'N' rfl) _ _,
      isPrefixOf_of_ne (hne 'I' rfl) _ _, isPrefixOf_of_ne (hne '-' rfl) _ _, by simp⟩
  · rw [h]
    exact ⟨isPrefixOf_of_ne (by decide) _ _, isPrefixOf_of_ne (by decide) _ _,
      isPrefixOf_of_ne (by decide) _ _, isPrefixOf_of_ne (by decide) _ _,
      isPrefixOf_of_ne (by decide) _ _, isPrefixOf_of_ne (hne 'I' rfl) "nfinity" _, by simp⟩

/-! ## Reading documents back -/

/-- A value that begins with no quote and no bracket is a word or a number. -/
theorem readValue_plain {c : Char} (hc : c ≠ '"' ∧ c ≠ '[' ∧ c ≠ '\x7b') (fuel : Nat) (t : Text) :
    readValue (fuel + 1) (.char c :: t) =
      (scanWord? (.char c :: t)).or (scanNumber? (.char c :: t)) := by
  rw [readValue]
  · rintro rest h
    cases h
    exact hc.1 rfl
  · rintro rest h
    cases h
    exact hc.2.1 rfl
  · rintro rest h
    cases h
    exact hc.2.2 rfl

theorem readValue_toString {n : Int} (h : hasNumeral n = true) (fuel : Nat) {rest : Text}
    (hrest : EndsNumeral rest) :
    readValue (fuel + 1) ((toString n : String) ++ rest) = some (.int n, rest) := by
  have hread : readValue (fuel + 1) ((toString n : String) ++ rest) =
      (scanWord? ((toString n : String) ++ rest)).or (scanNumber? ((toString n : String) ++ rest)) := by
    obtain ⟨c, digits, hc, htext | htext⟩ := exists_toString n
    · rw [htext]
      exact readValue_plain ⟨ne_of_isDigit_of_not hc rfl, ne_of_isDigit_of_not hc rfl,
        ne_of_isDigit_of_not hc rfl⟩ _ _
    · rw [htext]
      exact readValue_plain (by decide) _ _
  rw [hread, scanWord?_toString, scanNumber?_toString h hrest, Option.none_or]

/-- An array that is not empty. -/
theorem readValue_list {t : Text} (h : Begins t) (fuel : Nat) :
    readValue (fuel + 1) (.char '[' :: t) = (readItems fuel t).map fun p => (.list p.1, p.2) := by
  rw [readValue, h.skip_eq]
  obtain ⟨c, rest, rfl, hc⟩ := h
  split
  · rename_i heq
    cases heq
    exact absurd rfl (not_of_isStart hc).2.1
  · rfl

/-- An object that is not empty. -/
theorem readValue_object {t : Text} (h : Begins t) (fuel : Nat) :
    readValue (fuel + 1) (.char '\x7b' :: t) =
      (readMembers fuel t).map fun p => (.mapping (Entries.ofList p.1), p.2) := by
  rw [readValue, h.skip_eq]
  obtain ⟨c, rest, rfl, hc⟩ := h
  split
  · rename_i heq
    cases heq
    exact absurd rfl (not_of_isStart hc).2.2
  · rfl

theorem endsNumeral_of {c : Char} (h : (c.isDigit || ['.', 'e', 'E'].contains c) = false) (t : Text) :
    EndsNumeral (.char c :: t) := by
  intro p hp
  cases hp
  exact h

/-- Parts are written with a comma and a blank between them. -/
theorem join_comma (a b : Text) (rest : List Text) : Text.join ", " (a :: b :: rest) =
    a ++ .char ',' :: .char ' ' :: Text.join ", " (b :: rest) := by
  rw [Text.join, Text.join, List.intercalate_cons_cons, List.append_assoc]
  rfl

theorem join_singleton (separator a : Text) : Text.join separator [a] = a :=
  List.intercalate_singleton

theorem Begins.join {a : Text} (h : Begins a) (rest : List Text) :
    Begins (Text.join ", " (a :: rest)) := by
  cases rest with
  | nil =>
    rw [join_singleton]
    exact h
  | cons b rest =>
    rw [join_comma]
    exact h.append _

/-- The blank after a comma or a colon is dropped. -/
theorem Begins.skip_blank {t : Text} (h : Begins t) : skip (.char ' ' :: t) = t := h.skip_eq

namespace Document

theorem begins_member (name : Str) (d : Document) :
    Begins (writeString name.text ++ ": " ++ write d) :=
  ((begins_writeString name.text).append _).append _

/-- A member of an object is read up to its value. -/
theorem readMembers_member (name : Str) (d : Document) (fuel : Nat) (rest : Text) :
    readMembers (fuel + 1) (writeString name.text ++ ": " ++ write d ++ rest) =
      match readValue fuel (write d ++ rest) with
      | none => none
      | some (v, afterValue) =>
        match skip afterValue with
        | .char '\x7d' :: after => some ([(.text name.text, v)], after)
        | .char ',' :: more =>
          (readMembers fuel (skip more)).map fun p => ((.text name.text, v) :: p.1, p.2)
        | _ => none := by
  have hname := scanString?_writeString name.joined (": " ++ (write d ++ rest))
  have hskip : skip (.char ' ' :: (write d ++ rest)) = write d ++ rest :=
    ((begins_write d).append rest).skip_blank
  rw [writeString, List.cons_append, List.cons_append, List.cons_append, List.append_assoc,
    List.append_assoc, List.append_assoc, List.singleton_append, readMembers, hname]
  change (match readValue fuel (skip (.char ' ' :: (write d ++ rest))) with
    | none => none
    | some (v, afterValue) => _) = _
  generalize skip (.char ' ' :: (write d ++ rest)) = t at hskip ⊢
  subst hskip
  rfl

/-- With this fuel the reader takes every written document of at most so many code points off the
start of a text. -/
def Reads (fuel : Nat) : Prop :=
  ∀ (d : Document) (rest : Text), d.write.length ≤ fuel → EndsNumeral rest →
    readValue fuel (d.write ++ rest) = some (d.value, rest)

theorem readItems_write {fuel : Nat} (hreads : ∀ m < fuel, Reads m) (d : Document)
    (items : List Document) (hfuel : (Text.join ", " (writeItems (d :: items))).length < fuel)
    (rest : Text) : readItems fuel (Text.join ", " (writeItems (d :: items)) ++ .char ']' :: rest) =
      some (values (d :: items), rest) := by
  obtain ⟨fuel, rfl⟩ : ∃ m, fuel = m + 1 := ⟨fuel - 1, by omega⟩
  have hfirst := hreads fuel (Nat.lt_succ_self fuel) d
  induction items generalizing d fuel with
  | nil =>
    rw [writeItems, writeItems, join_singleton] at hfuel ⊢
    rw [readItems, hfirst (.char ']' :: rest) (by omega) (endsNumeral_of rfl rest)]
    rfl
  | cons e items ih =>
    rw [writeItems, writeItems, join_comma, ← writeItems] at hfuel ⊢
    simp only [List.length_append, List.length_cons] at hfuel
    obtain ⟨fuel, rfl⟩ : ∃ m, fuel = m + 1 := ⟨fuel - 1, by omega⟩
    have hbegins : Begins (Text.join ", " (writeItems (e :: items)) ++ .char ']' :: rest) :=
      ((begins_write e).join _).append _
    have hmore := ih e fuel (fun m hm => hreads m (by omega)) (by omega)
      (hreads fuel (by omega) e)
    rw [List.append_assoc, List.cons_append, List.cons_append, readItems,
      hfirst _ (by omega) (endsNumeral_of rfl _)]
    change (readItems (fuel + 1) (skip (.char ' ' :: _))).map _ = _
    rw [hbegins.skip_blank, hmore]
    rfl

theorem readMembers_write {fuel : Nat} (hreads : ∀ m < fuel, Reads m) (name : Str) (d : Document)
    (members : List (Str × Document))
    (hfuel : (Text.join ", " (writeMembers ((name, d) :: members))).length < fuel) (rest : Text) :
    readMembers fuel (Text.join ", " (writeMembers ((name, d) :: members)) ++ .char '\x7d' :: rest) =
      some (memberValues ((name, d) :: members), rest) := by
  obtain ⟨fuel, rfl⟩ : ∃ m, fuel = m + 1 := ⟨fuel - 1, by omega⟩
  have hfirst := hreads fuel (Nat.lt_succ_self fuel) d
  induction members generalizing name d fuel with
  | nil =>
    rw [writeMembers, writeMembers, join_singleton] at hfuel ⊢
    simp only [List.length_append] at hfuel
    rw [readMembers_member, hfirst _ (by omega) (endsNumeral_of rfl rest)]
    rfl
  | cons member members ih =>
    obtain ⟨next, e⟩ := member
    rw [writeMembers, writeMembers, join_comma, ← writeMembers] at hfuel ⊢
    simp only [List.length_append, List.length_cons] at hfuel
    obtain ⟨fuel, rfl⟩ : ∃ m, fuel = m + 1 := ⟨fuel - 1, by omega⟩
    have hbegins : Begins (Text.join ", " (writeMembers ((next, e) :: members)) ++
        .char '\x7d' :: rest) := ((begins_member next e).join _).append _
    have hmore := ih next e fuel (fun m hm => hreads m (by omega)) (by omega)
      (hreads fuel (by omega) e)
    rw [List.append_assoc, List.cons_append, List.cons_append, readMembers_member,
      hfirst _ (by omega) (endsNumeral_of rfl _)]
    change (readMembers (fuel + 1) (skip (.char ' ' :: _))).map _ = _
    rw [hbegins.skip_blank, hmore]
    rfl

/-- The induction is on the fuel: the readers of items and members hand on less than they got. -/
theorem reads (fuel : Nat) : Reads fuel := by
  induction fuel using Nat.strongRecOn with
  | ind fuel ih =>
    intro d rest hfuel hrest
    obtain ⟨c, more, hstart, -⟩ := begins_write d
    have hpos : 0 < d.write.length := by simp [hstart]
    obtain ⟨fuel, rfl⟩ : ∃ m, fuel = m + 1 := ⟨fuel - 1, by omega⟩
    have hreads : ∀ m < fuel, Reads m := fun m hm => ih m (by omega)
    cases d with
    | null => rfl
    | bool b => cases b <;> rfl
    | int n short => exact readValue_toString short fuel hrest
    | text s =>
      rw [write, writeString, List.cons_append, List.append_assoc, readValue, List.singleton_append,
        scanString?_writeString s.joined]
      rfl
    | list items =>
      cases items with
      | nil => rfl
      | cons d items =>
        simp only [write, List.length_cons, List.length_append, List.length_nil] at hfuel
        have hbegins : Begins (Text.join ", " (writeItems (d :: items)) ++ .char ']' :: rest) :=
          ((begins_write d).join _).append _
        rw [write, List.cons_append, List.append_assoc, List.singleton_append,
          readValue_list hbegins, readItems_write hreads d items (by omega)]
        rfl
    | object members =>
      cases members with
      | nil => rfl
      | cons member members =>
        obtain ⟨name, d⟩ := member
        simp only [write, List.length_cons, List.length_append, List.length_nil] at hfuel
        have hbegins : Begins (Text.join ", " (writeMembers ((name, d) :: members)) ++
            .char '\x7d' :: rest) := ((begins_member name d).join _).append _
        rw [write, List.cons_append, List.append_assoc, List.singleton_append,
          readValue_object hbegins, readMembers_write hreads name d members (by omega)]
        rfl

/-- The reader gives a written document back. -/
theorem read?_write (d : Document) : read? d.write = some d.value := by
  have hread := reads (2 * d.write.length + 2) d [] (by omega) (by rintro _ ⟨⟩)
  rw [List.append_nil] at hread
  rw [read?, (begins_write d).skip_eq, hread]
  rfl

example : write (.object [("a", .list [.null, .bool true, .text "é\""]), ("b", .object [])]) =
    "\x7b\"a\": [null, true, \"\\u00e9\\\"\"], \"b\": \x7b\x7d\x7d" := by decide

end Document

end Json

end RowStore
