import Mathlib.Data.List.Chain
import RowStore.Json.Reader

/-!
# Writing JSON strings

* `Text.Joined` : no first half of a pair stands directly before a second one, since JSON has one
  character for both;
* `Json.writeString` : a text as a string literal of ASCII characters; what is not a printable ASCII
  character is written as escaped code units;
* `Json.scanString?_writeString` : the reader gives a joined text back.
-/

namespace RowStore

namespace CodePoint

/-- The first half of a pair. -/
def isFirst : CodePoint → Bool
  | char _ => false
  | half h => h.val < 0x400

/-- The second half of a pair. -/
def isSecond : CodePoint → Bool
  | char _ => false
  | half h => 0x400 ≤ h.val

end CodePoint

/-- No first half of a pair stands directly before a second one: both together are one character. -/
def Text.Joined (t : Text) : Prop :=
  t.IsChain fun p q => ¬ (p.isFirst = true ∧ q.isSecond = true)

namespace Json

/-! ## The written form -/

/-- The digit of a number below sixteen. -/
def hexDigit (n : Nat) : Char := if n < 10 then Char.ofNat (0x30 + n) else Char.ofNat (0x57 + n)

/-- The escape of a code unit. -/
def writeUnit (n : Nat) : Text :=
  Text.ofChars ['\\', 'u', hexDigit (n / 0x1000 % 16), hexDigit (n / 0x100 % 16),
    hexDigit (n / 0x10 % 16), hexDigit (n % 16)]

/-- The letter that stands for a character after a backslash, if there is one. -/
def shortLetter? (c : Char) : Option Char :=
  if c = '"' ∨ c = '\\' then some c
  else if c = '\n' then some 'n'
  else if c = '\r' then some 'r'
  else if c = '\t' then some 't'
  else if c = '\x08' then some 'b'
  else if c = '\x0c' then some 'f'
  else none

/-- Whether a character is printable ASCII. -/
def isPlain (c : Char) : Bool := 0x20 ≤ c.toNat && c.toNat ≤ 0x7E

/-- The code units of a number: one, or two above the first plane. -/
def unitsOf (n : Nat) : List Nat :=
  if n < 0x10000 then [n]
  else [0xD800 + (n - 0x10000) / 0x400, 0xDC00 + (n - 0x10000) % 0x400]

/-- A code point of a string literal. -/
def writePoint : CodePoint → Text
  | .char c =>
    match shortLetter? c with
    | some letter => Text.ofChars ['\\', letter]
    | none => if isPlain c then [.char c] else (unitsOf c.toNat).flatMap writeUnit
  | p => (unitsOf p.number).flatMap writeUnit

/-- A text as a string literal. -/
def writeString (t : Text) : Text := .char '"' :: (t.flatMap writePoint ++ [.char '"'])

/-! ## Reading it back -/

/-- The pieces that a code point is read as. -/
def piecesOf : CodePoint → List Piece
  | .char c =>
    if (shortLetter? c).isSome || isPlain c then [.point (.char c)]
    else (unitsOf c.toNat).map .unit
  | p => (unitsOf p.number).map .unit

theorem hexDigit?_hexDigit : ∀ n < 16, hexDigit? (hexDigit n) = some n := by decide

theorem hexUnit?_hexDigit {n : Nat} (h : n < 0x10000) :
    hexUnit? (hexDigit (n / 0x1000 % 16)) (hexDigit (n / 0x100 % 16)) (hexDigit (n / 0x10 % 16))
      (hexDigit (n % 16)) = some n := by
  have hdigit : ∀ m, hexDigit? (hexDigit (m % 16)) = some (m % 16) :=
    fun m => hexDigit?_hexDigit _ (Nat.mod_lt m (by decide))
  simp only [hexUnit?, hdigit, Option.bind_eq_bind, Option.bind_some, Option.some.injEq]
  omega

theorem scanPieces?_writeUnit {n : Nat} (h : n < 0x10000) (rest : Text) :
    scanPieces? (writeUnit n ++ rest) =
      (scanPieces? rest).map fun p => (.unit n :: p.1, p.2) := by
  simp only [writeUnit, Text.ofChars, List.map_cons, List.map_nil, List.cons_append,
    List.nil_append, scanPieces?, hexUnit?_hexDigit h]

theorem scanPieces?_writeUnits {ns : List Nat} (h : ∀ n ∈ ns, n < 0x10000) (rest : Text) :
    scanPieces? (ns.flatMap writeUnit ++ rest) =
      (scanPieces? rest).map fun p => (ns.map .unit ++ p.1, p.2) := by
  induction ns with
  | nil => simp
  | cons n ns ih =>
    have hrest := ih fun m hm => h m (List.mem_cons_of_mem _ hm)
    rw [List.flatMap_cons, List.append_assoc, scanPieces?_writeUnit (h n List.mem_cons_self),
      hrest, Option.map_map]
    rfl

/-- The letters after a backslash are read as the characters that they stand for. -/
theorem scanPieces?_shortLetter {c letter : Char} (h : shortLetter? c = some letter) (rest : Text) :
    scanPieces? (.char '\\' :: .char letter :: rest) =
      (scanPieces? rest).map fun p => (.point (.char c) :: p.1, p.2) := by
  unfold shortLetter? at h
  split at h
  · rename_i hc
    cases h
    rcases hc with rfl | rfl <;> simp [scanPieces?, shortEscape?]
  · repeat
      split at h
      · rename_i hc
        cases h
        subst hc
        simp [scanPieces?, shortEscape?]
    cases h

theorem scanPieces?_plain {c : Char} (hshort : shortLetter? c = none) (hplain : isPlain c = true)
    (rest : Text) : scanPieces? (.char c :: rest) =
      (scanPieces? rest).map fun p => (.point (.char c) :: p.1, p.2) := by
  have hquote : c ≠ '"' := by
    intro hc
    subst hc
    exact absurd hshort (by decide)
  have hback : c ≠ '\\' := by
    intro hc
    subst hc
    exact absurd hshort (by decide)
  have hnumber : ¬ (CodePoint.char c).number < 0x20 := by
    simp only [isPlain, Bool.and_eq_true, decide_eq_true_eq] at hplain
    exact Nat.not_lt.mpr hplain.1
  rw [scanPieces?]
  · simp [hback, hnumber]
  · simpa using hquote
  · intro a b c' d more h
    simp_all
  · intro c' more h
    simp_all

theorem lt_of_mem_unitsOf {n m : Nat} (h : n < 0x110000) (hm : m ∈ unitsOf n) : m < 0x10000 := by
  unfold unitsOf at hm
  split at hm
  · simp only [List.mem_singleton] at hm
    omega
  · simp only [List.mem_cons, List.not_mem_nil, or_false] at hm
    omega

theorem number_lt (p : CodePoint) : p.number < 0x110000 := by
  cases p with
  | char c => exact c.valid.elim (fun h => Nat.lt_trans h (by decide)) fun h => h.2
  | half h =>
    simp only [CodePoint.number, CodePoint.firstHalf]
    omega

theorem scanPieces?_writePoint (p : CodePoint) (rest : Text) :
    scanPieces? (writePoint p ++ rest) =
      (scanPieces? rest).map fun q => (piecesOf p ++ q.1, q.2) := by
  have hunits := scanPieces?_writeUnits (fun m hm => lt_of_mem_unitsOf (number_lt p) hm) rest
  cases p with
  | half h => exact hunits
  | char c =>
    rw [writePoint, piecesOf]
    cases hshort : shortLetter? c with
    | some letter => exact scanPieces?_shortLetter hshort rest
    | none =>
      cases hplain : isPlain c with
      | true => exact scanPieces?_plain hshort hplain rest
      | false => exact hunits

theorem scanPieces?_writePoints (t rest : Text) :
    scanPieces? (t.flatMap writePoint ++ .char '"' :: rest) =
      some (t.flatMap piecesOf, rest) := by
  induction t with
  | nil => simp [scanPieces?]
  | cons p t ih =>
    rw [List.flatMap_cons, List.append_assoc, scanPieces?_writePoint, ih]
    rfl

/-! ## Units that form no pair -/

theorem ofNumber_number (p : CodePoint) : CodePoint.ofNumber p.number = p := by
  cases p with
  | char c =>
    have hvalid := c.valid
    simp only [UInt32.isValidChar, Nat.isValidChar] at hvalid
    rw [CodePoint.ofNumber, dif_neg]
    · simp [CodePoint.number]
    · simp only [CodePoint.number, CodePoint.firstHalf, Char.toNat]
      omega
  | half h =>
    have hle : CodePoint.firstHalf ≤ (CodePoint.half h).number := Nat.le_add_right _ _
    have hsub : (CodePoint.half h).number - CodePoint.firstHalf = h.val := Nat.add_sub_cancel_left ..
    simp only [CodePoint.ofNumber, hle, hsub, h.isLt, and_self, dif_pos]

/-- Whether pieces start with the second unit of a pair. -/
def startsLow : List Piece → Bool
  | .unit n :: _ => isLowUnit n
  | _ => false

theorem joinPieces_unit {n : Nat} {pieces : List Piece}
    (h : isHighUnit n = true → startsLow pieces = false) :
    joinPieces (.unit n :: pieces) = CodePoint.ofNumber n :: joinPieces pieces := by
  cases pieces with
  | nil => rfl
  | cons piece rest =>
    cases piece with
    | point p => rfl
    | unit m =>
      rw [joinPieces]
      cases hn : isHighUnit n with
      | false => rfl
      | true =>
        have hm : isLowUnit m = false := h hn
        rw [hm]
        rfl

/-- A character is no half of a pair. -/
theorem toNat_of_char (c : Char) : c.toNat < 0xD800 ∨ (0xE000 ≤ c.toNat ∧ c.toNat < 0x110000) := by
  have hvalid := c.valid
  simp only [UInt32.isValidChar, Nat.isValidChar] at hvalid
  simp only [Char.toNat]
  omega

theorem piecesOf_half (h : Fin 2048) : piecesOf (.half h) = [.unit (0xD800 + h.val)] := by
  have hlt : (CodePoint.half h).number < 0x10000 := by
    simp only [CodePoint.number, CodePoint.firstHalf]
    omega
  rw [piecesOf, unitsOf, if_pos hlt]
  · rfl
  · intro c hc
    cases hc

/-- The pieces of a character: itself, its unit, or the two units of a pair. -/
theorem piecesOf_char (c : Char) : piecesOf (.char c) = [.point (.char c)] ∨
    (c.toNat < 0x10000 ∧ piecesOf (.char c) = [.unit c.toNat]) ∨
    (0x10000 ≤ c.toNat ∧ piecesOf (.char c) = [.unit (0xD800 + (c.toNat - 0x10000) / 0x400),
      .unit (0xDC00 + (c.toNat - 0x10000) % 0x400)]) := by
  rw [piecesOf]
  split
  · exact Or.inl rfl
  · rw [unitsOf]
    by_cases hlt : c.toNat < 0x10000
    · rw [if_pos hlt]
      exact Or.inr (Or.inl ⟨hlt, rfl⟩)
    · rw [if_neg hlt]
      exact Or.inr (Or.inr ⟨Nat.le_of_not_lt hlt, rfl⟩)

/-- The pieces of a code point start with a second unit only if it is a second half. -/
theorem startsLow_piecesOf (p : CodePoint) (pieces : List Piece) :
    startsLow (piecesOf p ++ pieces) = p.isSecond := by
  cases p with
  | half h =>
    rw [piecesOf_half, Bool.eq_iff_iff]
    simp only [List.cons_append, startsLow, isLowUnit, CodePoint.isSecond, Bool.and_eq_true,
      decide_eq_true_eq]
    omega
  | char c =>
    have hc := toNat_of_char c
    rw [Bool.eq_iff_iff]
    rcases piecesOf_char c with h | ⟨hlt, h⟩ | ⟨hle, h⟩
    · simp [h, startsLow, CodePoint.isSecond]
    · simp only [h, List.cons_append, startsLow, isLowUnit, CodePoint.isSecond, Bool.and_eq_true,
        decide_eq_true_eq, Bool.false_eq_true, iff_false]
      omega
    · simp only [h, List.cons_append, startsLow, isLowUnit, CodePoint.isSecond, Bool.and_eq_true,
        decide_eq_true_eq, Bool.false_eq_true, iff_false]
      omega

/-- The pieces of a code point form that code point, unless it is a first half before a second one. -/
theorem joinPieces_piecesOf {p : CodePoint} {pieces : List Piece}
    (h : p.isFirst = true → startsLow pieces = false) :
    joinPieces (piecesOf p ++ pieces) = p :: joinPieces pieces := by
  cases p with
  | half k =>
    have hfirst : isHighUnit (0xD800 + k.val) = true → startsLow pieces = false := by
      intro hhigh
      apply h
      simp only [isHighUnit, Bool.and_eq_true, decide_eq_true_eq] at hhigh
      simp only [CodePoint.isFirst, decide_eq_true_eq]
      omega
    rw [piecesOf_half, List.cons_append, List.nil_append, joinPieces_unit hfirst]
    exact congrArg (· :: joinPieces pieces) (ofNumber_number (.half k))
  | char c =>
    have hc := toNat_of_char c
    rcases piecesOf_char c with hp | ⟨hlt, hp⟩ | ⟨hle, hp⟩
    · rw [hp]
      rfl
    · have hlow : isHighUnit c.toNat = false := by
        simp only [isHighUnit, Bool.and_eq_false_iff, decide_eq_false_iff_not]
        omega
      rw [hp, List.cons_append, List.nil_append, joinPieces_unit (by simp [hlow])]
      exact congrArg (· :: joinPieces pieces) (ofNumber_number (.char c))
    · have hpair : (isHighUnit (0xD800 + (c.toNat - 0x10000) / 0x400) &&
          isLowUnit (0xDC00 + (c.toNat - 0x10000) % 0x400)) = true := by
        simp only [isHighUnit, isLowUnit, Bool.and_eq_true, decide_eq_true_eq]
        omega
      have hnumber : 0x10000 + (0xD800 + (c.toNat - 0x10000) / 0x400 - 0xD800) * 0x400 +
          (0xDC00 + (c.toNat - 0x10000) % 0x400 - 0xDC00) = c.toNat := by omega
      rw [hp, List.cons_append, List.cons_append, List.nil_append, joinPieces, hpair, if_pos rfl,
        hnumber]
      exact congrArg (· :: joinPieces pieces) (ofNumber_number (.char c))

theorem joinPieces_flatMap {t : Text} (h : t.Joined) : joinPieces (t.flatMap piecesOf) = t := by
  induction t with
  | nil => rfl
  | cons p t ih =>
    rw [List.flatMap_cons, joinPieces_piecesOf, ih h.tail]
    intro hfirst
    cases t with
    | nil => rfl
    | cons q t =>
      rw [List.flatMap_cons, startsLow_piecesOf]
      have hpair := (List.isChain_cons_cons.mp h).1
      exact Bool.eq_false_iff.mpr fun hsecond => hpair ⟨hfirst, hsecond⟩

/-- The reader gives a text back, and what follows its closing quote. -/
theorem scanString?_writeString {t : Text} (h : t.Joined) (rest : Text) :
    scanString? (t.flatMap writePoint ++ .char '"' :: rest) = some (t, rest) := by
  rw [scanString?, scanPieces?_writePoints, Option.map_some, joinPieces_flatMap h]

end Json

end RowStore
