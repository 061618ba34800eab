import RowStore.Proofs.Response.Answered
import RowStore.Proofs.Response.RoundTrip
import RowStore.Proofs.Value.Equality

/-!
# Which texts carry an answer

* `Framed t inner` : what lies between the first `(` and the last `)` of a text; `framed?_eq_some_iff`;
* `Carries t payload` : a text with a JSON object in its frame;
* `Garbled`, `Unlistable` : errors of an answer that cannot be listed, and entries because of which they
  cannot; `describe_eq_error_iff`, `reportedFault_cases`;
* `unwrap_text` : which payload a text has, and which texts are not refused as an answer should be.
-/

namespace RowStore

namespace Envelope

variable {t inner : Text} {entry : Value} {fault : Fault}

/-! ## Frames -/

/-- A text with a `(` before its last `)`, and what lies between the first `(` and that. -/
def Framed (t inner : Text) : Prop :=
  ∃ before after, t = before ++ .char '(' :: (inner ++ .char ')' :: after) ∧
    .char '(' ∉ before ∧ .char ')' ∉ after

/-- What is left from the first occurrence of an element on, and what is dropped before it. -/
theorem exists_of_dropWhile_ne {α : Type} [DecidableEq α] {x y : α} {xs rest : List α}
    (h : xs.dropWhile (· ≠ x) = y :: rest) : y = x ∧ ∃ before, xs = before ++ x :: rest ∧ x ∉ before := by
  induction xs with
  | nil => cases h
  | cons z zs ih =>
    by_cases hz : z = x
    · rw [List.dropWhile_cons_of_neg (by simpa using hz)] at h
      cases h
      exact ⟨hz, [], by rw [hz, List.nil_append], List.not_mem_nil⟩
    · rw [List.dropWhile_cons_of_pos (by simpa using hz)] at h
      obtain ⟨hy, before, rfl, hbefore⟩ := ih h
      exact ⟨hy, z :: before, rfl, by simp [Ne.symm hz, hbefore]⟩

/-- What is found in a text is what its frame holds. -/
theorem framed?_eq_some_iff : framed? t = some inner ↔ Framed t inner := by
  constructor
  · intro h
    unfold framed? at h
    split at h
    case h_1 => cases h
    case h_2 opening rest hstart =>
      split at h
      case h_1 => cases h
      case h_2 closing reversed hend =>
        cases h
        obtain ⟨-, before, hbefore, hopen⟩ := exists_of_dropWhile_ne hstart
        obtain ⟨-, behind, hbehind, hclose⟩ := exists_of_dropWhile_ne hend
        -- the part behind the last `)` has been read backwards
        have hrest : rest = reversed.reverse ++ .char ')' :: behind.reverse := by
          rw [← List.reverse_reverse rest, hbehind]
          simp
        exact ⟨before, behind.reverse, by rw [hbefore, hrest], hopen, by rwa [List.mem_reverse]⟩
  · rintro ⟨before, after, rfl, hbefore, hafter⟩
    exact framed?_append hbefore hafter inner

/-- A text with a JSON object in its frame. -/
def Carries (t : Text) (payload : Entries Value) : Prop :=
  ∃ inner, Framed t inner ∧ Json.read? inner = some (.mapping payload)

/-! ## Errors that an answer reports -/

/-- An entry whose message is no text: an object of which the first message that is not blank is
something else. -/
def Garbled (entry : Value) : Prop :=
  ∃ fields message, entry = .mapping fields ∧
    (Response.reportNames.map (Value.get fields)).find? (fun v => !v.isBlank) = some message ∧
    message.text? = none

/-- Errors that cannot be listed: they are not blank, and nothing can be gone through, or it has a garbled
entry. -/
def Unlistable (errors : Value) : Prop :=
  errors.isBlank = false ∧ ∀ entries, errors.items? = some entries → ∃ entry ∈ entries, Garbled entry

theorem firstGiven_eq (vs : List Value) (last : Value) :
    firstGiven vs last = (vs.find? fun v => !v.isBlank).getD last := by
  induction vs with
  | nil => rfl
  | cons v rest ih =>
    rw [firstGiven, List.find?_cons]
    cases v.isBlank with
    | true => exact ih
    | false => rfl

/-- An entry can be described unless it is garbled. -/
theorem describe_eq_error_iff : describe entry = .error fault ↔ fault = .unsuitable ∧ Garbled entry := by
  cases entry with
  | mapping fields =>
    have hdescribe : describe (.mapping fields) =
        (((Response.reportNames.map (Value.get fields)).find? fun v => !v.isBlank).getD
          (.text (Value.mapping fields).plain)).expectText :=
      congrArg Value.expectText (firstGiven_eq _ _)
    rw [hdescribe, Value.expectText]
    cases hfind : (Response.reportNames.map (Value.get fields)).find? fun v => !v.isBlank with
    | none =>
      refine iff_of_false nofun ?_
      rintro ⟨-, _, message, ⟨⟩, hmessage, -⟩
      rw [hfind] at hmessage
      cases hmessage
    | some message =>
      rw [Option.getD_some]
      cases htext : message.text? with
      | none =>
        constructor
        · rintro ⟨⟩
          exact ⟨rfl, fields, message, rfl, hfind, htext⟩
        · rintro ⟨rfl, -⟩
          rfl
      | some s =>
        refine iff_of_false nofun ?_
        rintro ⟨-, _, message', ⟨⟩, hmessage, htext'⟩
        rw [hfind] at hmessage
        cases hmessage
        rw [htext] at htext'
        cases htext'
  | _ => exact iff_of_false nofun fun ⟨_, _, _, h, _⟩ => nomatch h

/-- An error is reported as one, unless the errors cannot be listed. -/
theorem reportedFault_cases (payload : Entries Value) :
    (reportedFault payload = .unsuitable ∧ Unlistable (Value.get payload "errors")) ∨
    ((reportedFault payload).kind = .parse ∧ ¬ Unlistable (Value.get payload "errors")) := by
  unfold reportedFault
  generalize Value.get payload "errors" = errors
  dsimp only
  cases hblank : errors.isBlank with
  | true =>
    refine Or.inr ⟨rfl, fun h => ?_⟩
    rw [Unlistable, hblank] at h
    exact absurd h.1 nofun
  | false =>
    rw [if_neg Bool.false_ne_true]
    cases hitems : errors.items? with
    | none => exact Or.inl ⟨rfl, hblank, fun _ h => by rw [hitems] at h; cases h⟩
    | some items =>
      have hunlistable : Unlistable errors ↔ ∃ entry ∈ items, Garbled entry := by
        simp only [Unlistable, hblank, hitems, Option.some.injEq, forall_eq', true_and]
      rw [hunlistable]
      dsimp only
      rcases mapM_cases describe items with ⟨texts, htexts, hall⟩ | ⟨fault, hfault, entry, hentry, h⟩
      · rw [htexts]
        refine Or.inr ⟨rfl, ?_⟩
        rintro ⟨entry, hentry, hgarbled⟩
        obtain ⟨s, hs⟩ := hall entry hentry
        rw [describe_eq_error_iff.mpr ⟨rfl, hgarbled⟩] at hs
        cases hs
      · obtain ⟨rfl, hgarbled⟩ := describe_eq_error_iff.mp h
        rw [hfault]
        exact Or.inl ⟨rfl, entry, hentry, hgarbled⟩

/-! ## Answers -/

/-- What becomes of a text with a payload depends on the payload's status. -/
theorem unwrap_of_carries {payload : Entries Value} (h : Carries t payload) :
    unwrap (.text t) =
      if (Value.get payload "status").equals (.text "error") then .error (reportedFault payload)
      else if (Value.get payload "status").equals (.text "ok") ||
          (Value.get payload "status").equals (.text "warning") then .ok payload
      else .error (.parse (.unknownStatus (Value.get payload "status"))) := by
  obtain ⟨inner, hframed, hread⟩ := h
  rw [unwrap, framed?_eq_some_iff.mpr hframed]
  dsimp only
  rw [hread]

/-- A text without a payload is refused. -/
theorem unwrap_of_not_carries (h : ∀ payload, ¬ Carries t payload) :
    ∃ cause, unwrap (.text t) = .error (.parse cause) := by
  unfold unwrap
  split
  case h_2 hnot => exact absurd rfl (hnot t)
  case h_1 s ht =>
    cases ht
    cases hframed : framed? t with
    | none => exact ⟨_, rfl⟩
    | some inner =>
      dsimp only
      cases hread : Json.read? inner with
      | none => exact ⟨_, rfl⟩
      | some v =>
        cases v with
        | mapping payload => exact absurd ⟨inner, framed?_eq_some_iff.mp hframed, hread⟩ (h payload)
        | _ => exact ⟨_, rfl⟩

/-- A text gives the payload that it carries if the payload's status is `ok` or `warning`, and nothing else. -/
theorem unwrap_eq_ok_iff {payload : Entries Value} : unwrap (.text t) = .ok payload ↔ Carries t payload ∧
    (Value.get payload "status" = .text "ok" ∨ Value.get payload "status" = .text "warning") := by
  constructor
  · intro h
    by_cases hcarries : ∃ payload', Carries t payload'
    · obtain ⟨payload', hcarries⟩ := hcarries
      rw [unwrap_of_carries hcarries] at h
      split at h
      case isTrue => cases h
      case isFalse =>
        split at h
        case isTrue hstatus =>
          cases h
          rw [Bool.or_eq_true, Value.equals_text_iff, Value.equals_text_iff] at hstatus
          exact ⟨hcarries, hstatus⟩
        case isFalse => cases h
    · obtain ⟨cause, hcause⟩ := unwrap_of_not_carries fun payload' h => hcarries ⟨payload', h⟩
      rw [hcause] at h
      cases h
  · rintro ⟨hcarries, hstatus⟩
    have hne : ¬ (Value.get payload "status").equals (.text "error") = true := by
      rw [Value.equals_text_iff]
      intro herror
      rw [herror] at hstatus
      rcases hstatus with h | h <;> exact absurd (Value.text.inj h) (by decide)
    rw [unwrap_of_carries hcarries, if_neg hne, if_pos]
    rwa [Bool.or_eq_true, Value.equals_text_iff, Value.equals_text_iff]

/-- A text with an error report whose errors cannot be listed. -/
def ReportsUnlistably (t : Text) : Prop :=
  ∃ payload, Carries t payload ∧ Value.get payload "status" = .text "error" ∧
    Unlistable (Value.get payload "errors")

/-- Only a report that cannot be listed is refused with a fault that does not say why the text is no answer. -/
theorem unwrap_fails_otherwise_iff :
    (∃ fault, unwrap (.text t) = .error fault ∧ fault.kind ≠ .parse) ↔ ReportsUnlistably t := by
  constructor
  · rintro ⟨fault, h, hkind⟩
    by_cases hcarries : ∃ payload, Carries t payload
    · obtain ⟨payload, hcarries⟩ := hcarries
      rw [unwrap_of_carries hcarries] at h
      split at h
      case isTrue herror =>
        obtain rfl := Except.error.inj h
        rcases reportedFault_cases payload with ⟨-, hlist⟩ | ⟨hparse, -⟩
        · exact ⟨payload, hcarries, Value.equals_text_iff.mp herror, hlist⟩
        · exact absurd hparse hkind
      case isFalse =>
        split at h
        case isTrue => cases h
        case isFalse =>
          cases h
          exact absurd rfl hkind
    · obtain ⟨cause, hcause⟩ := unwrap_of_not_carries fun payload h => hcarries ⟨payload, h⟩
      rw [hcause] at h
      cases h
      exact absurd rfl hkind
  · rintro ⟨payload, hcarries, herror, hlist⟩
    rw [unwrap_of_carries hcarries, if_pos (Value.equals_text_iff.mpr herror)]
    rcases reportedFault_cases payload with ⟨hfault, -⟩ | ⟨-, hlisted⟩
    · exact ⟨_, rfl, by rw [hfault]; decide⟩
    · exact absurd hlist hlisted

/-- The payload of a text is the JSON object in its frame, if its status is `ok` or `warning`. Any other text is
refused with a fault that says why it is no answer, unless it reports errors that cannot be listed. (Arrays
and objects are taken to be read at any depth.) -/
theorem unwrap_text (t : Text) :
    (∀ payload, unwrap (.text t) = .ok payload ↔ Carries t payload ∧
      (Value.get payload "status" = .text "ok" ∨ Value.get payload "status" = .text "warning")) ∧
    ((∃ fault, unwrap (.text t) = .error fault ∧ fault.kind ≠ .parse) ↔ ReportsUnlistably t) :=
  ⟨fun _ => unwrap_eq_ok_iff, unwrap_fails_otherwise_iff⟩

/-- A report of one error, whose message is a number. -/
def numberedReport : Json.Document := .object [("status", .text "error"),
  ("errors", .list [.object [("message", .int (404 : Nat) (Response.hasNumeral_of_lt (by decide)))]])]

/-- It is a JSON object in a frame, and it is not refused as such a report should be. -/
theorem unwrap_fails_at_number :
    ∃ t payload, t = Response.opening ++ .char '(' :: (numberedReport.write ++ .char ')' :: ";") ∧
      Carries t payload ∧ Value.get payload "status" = .text "error" ∧
      unwrap (.text t) = .error .unsuitable ∧ Fault.unsuitable.kind ≠ .parse := by
  have hcarries : Carries (Response.opening ++ .char '(' :: (numberedReport.write ++ .char ')' :: ";"))
      [(.text "status", .text "error"), (.text "errors", .list [.mapping [(.text "message", .int (404 : Nat))]])] :=
    ⟨_, ⟨_, _, rfl, by decide, by decide⟩, by rw [Json.Document.read?_write]; rfl⟩
  refine ⟨_, _, rfl, hcarries, rfl, ?_, by decide⟩
  rw [unwrap_of_carries hcarries]
  rfl

end Envelope

end RowStore
