import RowStore.Opening
import RowStore.Proofs.Fault.Outcome
import RowStore.Proofs.Grid.Retry

/-!
# How opening a table fails

Opening checks the names of the options and three of their values. It takes the locator of the spreadsheet, the
folder of lock files, what stands under `config`, and the keys that the service answers with to be of the types
that its steps need, and the values that its messages show to have texts. Where they are so, it fails with faults
of the configuration only; elsewhere with others.

* `Reports` : an outcome whose fault, if it is one, is of the configuration;
* `Party.Opens` : a service that answers with a key and a title, or with one of the faults known for that;
* `reports_settingsOf_iff`, `reports_openSheet_iff`, `reports_pathOf_iff` : when each step reports;
* `Opening.Suited` : the options for which all steps report, and `reports_run_iff`, that only those do.
-/

namespace RowStore

open Act

variable {α β σ : Type}

/-- An outcome whose fault, if it is one, is of the configuration. -/
abbrev Reports (e : Except Fault α) : Prop :=
  Ends (fun fault => fault.kind = .configuration) (fun _ => True) e

theorem reports_bind_iff {e : Except Fault α} {f : α → Except Fault β} :
    Reports (e >>= f) ↔ Reports e ∧ ∀ a, e = .ok a → Reports (f a) := by
  cases e with
  | error fault => exact ⟨fun h => ⟨h, nofun⟩, fun h => h.1⟩
  | ok a => exact ⟨fun h => ⟨trivial, fun _ ha => Except.ok.inj ha ▸ h⟩, fun h => h.2 a rfl⟩

theorem reports_mapM {f : α → Except Fault β} {as : List α} (h : ∀ a ∈ as, Reports (f a)) :
    Reports (as.mapM f) := (Ends.mapM h).mono (fun _ h => h) fun _ _ => trivial

/-- A value that does for a text that may be missing. -/
def Value.IsTextual (v : Value) : Prop := v.isBlank = true ∨ ∃ t, v = .text t

theorem Value.expectText_cases (v : Value) :
    (∃ t, v = .text t) ∨ ((∀ t, v ≠ .text t) ∧ v.expectText = .error .unsuitable) := by
  cases v
  case text t => exact Or.inl ⟨t, rfl⟩
  all_goals exact Or.inr ⟨nofun, rfl⟩

/-! ## The settings -/

namespace Settings

theorem reports_identifierOf (v : Value) : Reports (identifierOf v) := by
  unfold identifierOf
  repeat' split
  all_goals trivial

/-- A number of a row that is refused, and too long for the message that refuses it. -/
def IsFar (v : Value) : Prop := ∃ n, v = .int n ∧ 1 < n ∧ hasNumeral n = false

theorem reports_checkHeaderRow_iff (v : Value) : Reports (checkHeaderRow v) ↔ ¬ IsFar v := by
  unfold checkHeaderRow
  cases hv : v.integer? with
  | none =>
    refine iff_of_true rfl ?_
    rintro ⟨n, rfl, -⟩
    cases hv
  | some n =>
    have hfar : IsFar v ↔ 1 < n ∧ v.hasText = false := by
      constructor
      · rintro ⟨m, rfl, hm, hlong⟩
        cases hv
        exact ⟨hm, hlong⟩
      · rintro ⟨hn, hlong⟩
        cases v with
        | int m =>
          cases hv
          exact ⟨n, rfl, hn, hlong⟩
        | bool b => exact absurd hlong nofun
        | _ => cases hv
    rw [hfar]
    dsimp only
    split
    · exact iff_of_true rfl fun h => by omega
    · split
      · exact iff_of_true trivial fun h => by omega
      · cases htext : v.hasText with
        | true =>
          rw [Fault.worded_of_hasMessage (f := .configuration (.headerRowUnsupported v)) htext]
          exact iff_of_true rfl nofun
        | false =>
          rw [Fault.worded_of_not_hasMessage (f := .configuration (.headerRowUnsupported v)) htext]
          exact iff_of_false nofun fun h => h ⟨by omega, rfl⟩

theorem reports_checkLockWait (v : Value) : Reports (checkLockWait v) := by
  unfold checkLockWait
  repeat' split
  all_goals trivial

/-- Options by which the headers stand in a row that is refused, and too long for the message. -/
def PutsHeadersFar (options : Entries Value) : Prop :=
  ∃ given t, keyed options = .ok given ∧ identifierOf (lastOf given .identifier) = .ok t ∧
    IsFar (lastOf given .headerRow)

theorem reports_ofKeyed_iff (given : List (Key × Value)) : Reports (ofKeyed given) ↔
    ∀ t, identifierOf (lastOf given .identifier) = .ok t → ¬ IsFar (lastOf given .headerRow) := by
  have hsteps : ofKeyed given = identifierOf (lastOf given .identifier) >>= fun identifier =>
      checkHeaderRow (lastOf given .headerRow) >>= fun _ =>
        checkLockWait (lastOf given .lockWaitMs) >>= fun _ => pure {
          store := lastOf given .store
          sheet := lastOf given .sheet
          identifier
          headerRow := lastOf given .headerRow
          lockWaitMs := lastOf given .lockWaitMs
          lockFolder := lastOf given .lockFolder } := rfl
  rw [hsteps, reports_bind_iff, and_iff_right (reports_identifierOf _)]
  refine forall_congr' fun t => imp_congr_right fun _ => ?_
  rw [reports_bind_iff, reports_checkHeaderRow_iff, and_iff_left]
  exact fun _ _ => (reports_checkLockWait _).bind fun _ _ => trivial

theorem reports_keyed {options : Entries Value} (h : ∀ name ∈ options.names, ∃ t, name = .text t) :
    Reports (keyed options) := by
  refine reports_mapM fun e he => ?_
  obtain ⟨t, ht⟩ := h e.1 (List.mem_map_of_mem he)
  split
  · trivial
  · rw [Fault.worded_of_hasMessage (show (Fault.configuration (.unknownOption e.1)).hasMessage = true by
      rw [ht]; rfl)]
    rfl

/-- The settings that a mapping describes are refused with faults of the configuration only, unless they put
the headers too far. -/
theorem reports_ofOptions_iff {options : Entries Value} (h : ∀ name ∈ options.names, ∃ t, name = .text t) :
    Reports (ofOptions (.mapping options)) ↔ ¬ PutsHeadersFar options := by
  have hfar : ∀ given, keyed options = .ok given → (Reports (ofKeyed given) ↔ ¬ PutsHeadersFar options) := by
    intro given hgiven
    rw [reports_ofKeyed_iff]
    constructor
    · rintro hkeyed ⟨given', t, hgiven', ht, hrow⟩
      obtain rfl : given = given' := Except.ok.inj (hgiven.symm.trans hgiven')
      exact hkeyed t ht hrow
    · exact fun hnot t ht hrow => hnot ⟨given, t, hgiven, ht, hrow⟩
  rw [ofOptions]
  split
  case isTrue hblank =>
    cases options with
    | nil => exact hfar [] rfl
    | cons => cases hblank
  case isFalse =>
    have hsteps : (do ofKeyed (← keyed (← (Value.mapping options).expectEntries))) =
        keyed options >>= ofKeyed := rfl
    rw [hsteps, reports_bind_iff, and_iff_right (reports_keyed h)]
    cases hgiven : keyed options with
    | error fault =>
      refine iff_of_true nofun ?_
      rintro ⟨given, t, hok, -⟩
      exact nomatch hgiven.symm.trans hok
    | ok given =>
      rw [← hfar given hgiven]
      exact ⟨fun h => h given rfl, fun h _ hok => Except.ok.inj hok ▸ h⟩

/-- The spreadsheet to open is the given one, or a text if none is given. -/
theorem locator_cases (s : Settings) (environment : Option Text) :
    (s.store.isBlank = false ∧ s.locator environment = .ok s.store) ∨
      (s.store.isBlank = true ∧ ((∃ t, s.locator environment = .ok (.text t)) ∨
        s.locator environment = .error (.configuration .noStore))) := by
  unfold locator
  cases s.store.isBlank with
  | false => exact Or.inl ⟨rfl, rfl⟩
  | true =>
    refine Or.inr ⟨rfl, ?_⟩
    cases environment with
    | none => exact Or.inr rfl
    | some name =>
      cases hname : name.isEmpty with
      | true => exact Or.inr (by simp [hname])
      | false => exact Or.inl ⟨name, by simp [hname]⟩

end Settings

namespace Opening

variable {options : Entries Value}

/-- A name that an option may have. -/
def IsOptionName (name : Value) : Prop := ∃ t, name = .text t ∧ t ∉ reservedNames

theorem checkName_cases (name : Value) : (IsOptionName name ∧ checkName name = .ok ()) ∨
    (¬ IsOptionName name ∧ checkName name = .error .unsuitable) := by
  rcases Value.expectText_cases name with ⟨t, rfl⟩ | ⟨hother, hname⟩
  · have hcheck : checkName (.text t) = if reservedNames.contains t then .error .unsuitable else .ok () := rfl
    rw [hcheck]
    by_cases ht : t ∈ reservedNames
    · rw [if_pos (List.contains_iff_mem.mpr ht)]
      refine Or.inr ⟨?_, rfl⟩
      rintro ⟨u, hu, hnot⟩
      cases hu
      exact hnot ht
    · rw [if_neg fun h => ht (List.contains_iff_mem.mp h)]
      exact Or.inl ⟨⟨t, rfl, ht⟩, rfl⟩
  · rw [checkName, hname]
    exact Or.inr ⟨fun ⟨t, h, _⟩ => hother t h, rfl⟩

theorem checkNames_cases (names : List Value) :
    ((∀ name ∈ names, IsOptionName name) ∧ names.forM checkName = .ok ()) ∨
      (¬ (∀ name ∈ names, IsOptionName name) ∧ names.forM checkName = .error .unsuitable) := by
  induction names with
  | nil => exact Or.inl ⟨List.forall_mem_nil _, rfl⟩
  | cons name rest ih =>
    have hstep : (name :: rest).forM checkName = checkName name >>= fun _ => rest.forM checkName := rfl
    rw [List.forall_mem_cons, hstep]
    rcases checkName_cases name with ⟨hname, hcheck⟩ | ⟨hname, hcheck⟩
    · rw [hcheck]
      exact ih.imp (fun h => ⟨⟨hname, h.1⟩, h.2⟩) fun h => ⟨fun hall => h.1 hall.2, h.2⟩
    · rw [hcheck]
      exact Or.inr ⟨fun hall => hname hall.1, rfl⟩

/-- What stands for whole settings is null, or is one option among others. -/
def IsOneOfOthers (options : Entries Value) : Prop := ∀ v, options.findText? settingsName = some v →
  v = .null ∨ ∃ e ∈ options, e.1.equals (.text settingsName) = false

theorem reports_withoutSettings_iff : Reports (withoutSettings none options) ↔ IsOneOfOthers options := by
  have hothers : (options.filter fun e => !e.1.equals (.text settingsName)).isEmpty = false ↔
      ∃ e ∈ options, e.1.equals (.text settingsName) = false := by
    rw [List.isEmpty_eq_false_iff_exists_mem]
    simp only [List.mem_filter, Bool.not_eq_true']
  unfold withoutSettings IsOneOfOthers
  dsimp only
  split
  case h_1 hnone =>
    rw [hnone]
    exact iff_of_true trivial nofun
  case h_2 hnull _ =>
    rw [hnull]
    exact iff_of_true trivial fun v hv => Or.inl (Option.some.inj hv).symm
  case h_3 v hvalue hsome _ =>
    rw [hsome, ← hothers]
    split
    case isTrue hempty =>
      rw [hempty]
      exact iff_of_false nofun fun h => (h v rfl).elim hvalue nofun
    case isFalse hne => exact iff_of_true rfl fun _ _ => Or.inr (Bool.not_eq_true _ ▸ hne)
  case h_4 heq => cases heq

/-- The other options are some of the options. -/
theorem subset_of_withoutSettings {others : Entries Value} (h : withoutSettings none options = .ok others) :
    ∀ e ∈ others, e ∈ options := by
  unfold withoutSettings at h
  dsimp only at h
  split at h
  · cases h
    exact fun _ => id
  · cases h
    exact fun _ he => (List.mem_filter.mp he).1
  · split at h <;> cases h
  · cases h

theorem reports_settingsOf_iff : Reports (settingsOf none options) ↔
    (∀ name ∈ options.names, IsOptionName name) ∧ IsOneOfOthers options ∧
      ∀ others, withoutSettings none options = .ok others → ¬ Settings.PutsHeadersFar others := by
  have hsteps : settingsOf none options = options.names.forM checkName >>= fun _ =>
    withoutSettings none options >>= fun others => Settings.ofOptions (.mapping others) := rfl
  rw [hsteps, ← reports_withoutSettings_iff]
  rcases checkNames_cases options.names with ⟨hnames, hcheck⟩ | ⟨hnames, hcheck⟩
  · rw [hcheck, and_iff_right hnames]
    change Reports (withoutSettings none options >>= _) ↔ _
    rw [reports_bind_iff]
    refine and_congr_right fun _ => forall_congr' fun others => imp_congr_right fun hothers => ?_
    refine Settings.reports_ofOptions_iff fun name hname => ?_
    obtain ⟨e, he, rfl⟩ := List.mem_map.mp hname
    obtain ⟨t, ht, -⟩ := hnames e.1 (List.mem_map_of_mem (subset_of_withoutSettings hothers e he))
    exact ⟨t, ht⟩
  · rw [hcheck]
    exact iff_of_false nofun fun h => hnames h.1

end Opening

/-! ## The spreadsheet and the worksheet -/

/-- A service that opens spreadsheets and worksheets, or answers with a fault that is known for that. -/
structure Party.Opens (party : Party σ) : Prop where
  store : ∀ byAddress locator st, Ends
    (fun fault => fault.kind = .api ∨ fault.kind = .storeMissing ∨ fault.kind = .addressWithoutKey)
    (fun _ => True) (party.answer (.openStore byAddress locator) st).1
  sheet : ∀ title st, Ends (fun fault => fault.kind = .api ∨ fault.kind = .sheetMissing) (fun _ => True)
    (party.answer (.openSheet title) st).1

namespace SheetCalls

variable {party : Party σ} {session : Session} {st : σ}

/-- A fault that is of the configuration as soon as the call that failed is named. -/
abbrev Fails (fault : Fault) : Prop := fault.kind = .configuration ∨ fault.kind = .service

theorem ends_openStore (hparty : party.Opens) (t : Text) :
    Ends Fails (fun _ => True) (run party (openStore (.text t)) session st).1 := by
  have hstep : openStore (.text t) =
      (rewording (ofAnswer (ask (.openStore (isAddress t) t))) fun fault =>
        if fault.kind = .storeMissing ∨ fault.kind = .addressWithoutKey then
          some (.configuration (.storeNotFound t))
        else serviceError (.openStoreFailed t) fault) := rfl
  have hstore := hparty.store (isAddress t) t st
  rw [hstep, run_rewording, run_ofAnswer_ask]
  generalize (party.answer (.openStore (isAddress t) t) st).1 = answer at hstore ⊢
  rcases answer with fault | store
  · dsimp only [reworded]
    split
    case isTrue => exact Or.inl rfl
    case isFalse hp =>
      rw [serviceError, if_pos (Or.resolve_right hstore hp)]
      exact Or.inr rfl
  · trivial

/-- The title of the worksheet is written if it cannot be opened. -/
theorem ends_openSheet_iff (hparty : party.Opens) (title : Value) :
    Ends Fails (fun _ => True) (run party (openSheet title) session st).1 ↔
      ((∃ fault, (party.answer (.openSheet title) st).1 = .error fault) → title.hasText = true) := by
  have hsheet := hparty.sheet title st
  rw [openSheet, run_rewording, run_ofAnswer_ask]
  generalize (party.answer (.openSheet title) st).1 = answer at hsheet ⊢
  rcases answer with fault | opened
  · have hcause : ∃ cause : Fault, Fails cause ∧ cause.hasMessage = title.hasText ∧
        (if fault.kind = .sheetMissing then some (Fault.worded (.configuration (.sheetNotFound title)))
          else (serviceError (.openSheetFailed title) fault).map Fault.worded).getD fault = cause.worded := by
      split
      case isTrue => exact ⟨_, Or.inl rfl, rfl, rfl⟩
      case isFalse hp =>
        rw [serviceError, if_pos (Or.resolve_right hsheet hp)]
        exact ⟨_, Or.inr rfl, rfl, rfl⟩
    obtain ⟨cause, hfails, hmessage, hworded⟩ := hcause
    dsimp only [reworded]
    rw [hworded]
    cases htext : title.hasText with
    | true =>
      rw [Fault.worded_of_hasMessage (hmessage.trans htext)]
      exact iff_of_true hfails fun _ => rfl
    | false =>
      rw [Fault.worded_of_not_hasMessage (hmessage.trans htext)]
      exact iff_of_false (show ¬ Fails .malformed by decide) fun h => nomatch h ⟨fault, rfl⟩
  · exact iff_of_true trivial nofun

end SheetCalls

namespace Opening

open SheetCalls

variable {party : Party σ} {session : Session} {st : σ} {s : Settings} {options : Entries Value}
  {environment : Option Text} {tokens : TokenSource}

/-- A call that fails is a matter of the configuration. -/
theorem reports_reworded_iff {e : Except Fault α} :
    Reports (reworded notOpened e) ↔ Ends Fails (fun _ => True) e := by
  cases e with
  | ok a => exact Iff.rfl
  | error fault =>
    change ((notOpened fault).getD fault).kind = .configuration ↔
      fault.kind = .configuration ∨ fault.kind = .service
    rw [notOpened]
    split
    case isTrue hkind => exact iff_of_true rfl (Or.inr hkind)
    case isFalse hkind => exact (or_iff_left hkind).symm

/-- A worksheet that cannot be opened has a title that can be written. -/
def NamesSheet (party : Party σ) (session : Session) (st : σ) (s : Settings) (environment : Option Text) : Prop :=
  ∀ locator, s.locator environment = .ok locator → ∀ store session' st',
    Act.run party (openStore locator) session st = (.ok store, session', st') →
      (∃ fault, (party.answer (.openSheet s.sheet) st').1 = .error fault) → s.sheet.hasText = true

/-- An act and what follows it end well just if the act does, and what follows it from where the act ends. -/
theorem ends_run_bind_iff {allowed : Fault → Prop} {m : Act α} {f : α → Act β} :
    Ends allowed (fun _ => True) (Act.run party (m >>= f) session st).1 ↔
      Ends allowed (fun _ => True) (Act.run party m session st).1 ∧
        ∀ a session' st', Act.run party m session st = (.ok a, session', st') →
          Ends allowed (fun _ => True) (Act.run party (f a) session' st').1 := by
  rw [Act.run_bind]
  rcases Act.run party m session st with ⟨fault | a, session', st'⟩
  · exact ⟨fun h => ⟨h, nofun⟩, fun h => h.1⟩
  · constructor
    · intro h
      refine ⟨trivial, ?_⟩
      rintro _ _ _ ⟨⟩
      exact h
    · rintro ⟨-, h⟩
      exact h a session' st' rfl

theorem ends_open_iff (hparty : party.Opens) (sheet : Value) (t : Text) :
    Ends Fails (fun _ => True) (Act.run party (openStore (.text t) >>= fun store =>
      SheetCalls.openSheet sheet >>= fun title => pure (store, title)) session st).1 ↔
        ∀ store session' st', Act.run party (openStore (.text t)) session st = (.ok store, session', st') →
          (∃ fault, (party.answer (.openSheet sheet) st').1 = .error fault) → sheet.hasText = true := by
  rw [ends_run_bind_iff, and_iff_right (ends_openStore hparty t)]
  refine forall₄_congr fun store session' st' _ => ?_
  -- the pair that is given in the end asks for nothing
  refine ends_run_bind_iff.trans ((and_iff_left ?_).trans (ends_openSheet_iff hparty sheet))
  exact fun _ _ _ _ => trivial

theorem reports_openSheet_iff (hparty : party.Opens) :
    Reports (Act.run party (openSheet s environment) session st).1 ↔
      s.store.IsTextual ∧ NamesSheet party session st s environment := by
  have hsteps : openSheet s environment = rewording (liftM (s.locator environment) >>= fun locator =>
      openStore locator >>= fun store => SheetCalls.openSheet s.sheet >>= fun title =>
        pure (store, title)) notOpened := rfl
  rw [hsteps, run_rewording, reports_reworded_iff, Act.run_bind, run_liftExcept]
  unfold NamesSheet
  rcases s.locator_cases environment with ⟨hgiven, hlocator⟩ | ⟨hblank, ⟨t, hlocator⟩ | hlocator⟩
  · rw [hlocator, Value.IsTextual, hgiven]
    rcases Value.expectText_cases s.store with ⟨t, ht⟩ | ⟨hother, hstore⟩
    · rw [ht, and_iff_right (Or.inr ⟨t, rfl⟩)]
      exact (ends_open_iff hparty s.sheet t).trans ⟨fun h _ hl => Except.ok.inj hl ▸ h, fun h => h _ rfl⟩
    · dsimp only
      rw [openStore, hstore]
      refine iff_of_false nofun ?_
      rintro ⟨h | ⟨t, ht⟩, -⟩
      · cases h
      · exact hother t ht
  · have htextual : s.store.IsTextual := Or.inl hblank
    rw [hlocator, and_iff_right htextual]
    exact (ends_open_iff hparty s.sheet t).trans ⟨fun h _ hl => Except.ok.inj hl ▸ h, fun h => h _ rfl⟩
  · rw [hlocator]
    exact iff_of_true (Or.inl rfl) ⟨Or.inl hblank, nofun⟩

/-! ## The lock file -/

theorem nameOf_cases (store title : Text) :
    ((store ++ "\x00" ++ title).string?.isSome = true ∧ ∃ name, LockFile.nameOf store title = .ok name) ∨
      ((store ++ "\x00" ++ title).string?.isSome = false ∧
        LockFile.nameOf store title = .error .unencodable) := by
  rw [LockFile.nameOf]
  cases (store ++ "\x00" ++ title).string? with
  | none => exact Or.inr ⟨rfl, rfl⟩
  | some message => exact Or.inl ⟨rfl, _, rfl⟩

theorem reports_pathOf_iff {store title : Text} {folder : Value} :
    Reports (LockFile.pathOf store title folder) ↔
      (store ++ "\x00" ++ title).string?.isSome = true ∧ folder.IsTextual := by
  rw [LockFile.pathOf]
  rcases nameOf_cases store title with ⟨hsome, name, hname⟩ | ⟨hnone, hname⟩
  · rw [hsome, hname, and_iff_right rfl, Value.IsTextual]
    change Reports (if _ then _ else _) ↔ _
    split
    case isTrue hblank => exact iff_of_true trivial (Or.inl hblank)
    case isFalse hblank =>
      rw [or_iff_right hblank]
      rcases Value.expectText_cases folder with ⟨t, rfl⟩ | ⟨hother, hfolder⟩
      · exact iff_of_true trivial ⟨t, rfl⟩
      · rw [hfolder]
        exact iff_of_false nofun fun ⟨t, ht⟩ => hother t ht
  · rw [hnone, hname]
    exact iff_of_false nofun fun h => nomatch h.1

/-! ## All of it -/

/-- Options that have what opening a table needs and does not check, and of which it can write what its messages
show. -/
structure Suited (party : Party σ) (session : Session) (st : σ) (options : Entries Value)
    (environment : Option Text) : Prop where
  names : ∀ name ∈ options.names, IsOptionName name
  config : IsOneOfOthers options
  row : ∀ others, withoutSettings none options = .ok others → ¬ Settings.PutsHeadersFar others
  store : ∀ s, settingsOf none options = .ok s → s.store.IsTextual
  sheet : ∀ s, settingsOf none options = .ok s → NamesSheet party session st s environment
  folder : ∀ s, settingsOf none options = .ok s → ∀ store title,
    (Act.run party (openSheet s environment) session st).1 = .ok (store, title) → s.lockFolder.IsTextual
  encodable : ∀ s, settingsOf none options = .ok s → ∀ store title,
    (Act.run party (openSheet s environment) session st).1 = .ok (store, title) →
      (store.plain ++ "\x00" ++ title.plain).string?.isSome = true

theorem reports_liftM_bind_iff {e : Except Fault α} {f : α → Act β} :
    Reports (Act.run party (liftM e >>= f) session st).1 ↔
      Reports e ∧ ∀ a, e = .ok a → Reports (Act.run party (f a) session st).1 := by
  have hrun : (Act.run party (liftM e >>= f) session st).1 =
      e >>= fun a => (Act.run party (f a) session st).1 := by
    rw [Act.run_bind, run_liftExcept]
    cases e <;> rfl
  rw [hrun, reports_bind_iff]

/-- Where an act ends with a step that asks for nothing, the state after the first part does not count. -/
theorem reports_bind_liftM_iff {m : Act α} {e : α → Except Fault β} {γ : Type} {value : α → β → γ} :
    Reports (Act.run party (m >>= fun a => liftM (e a) >>= fun b => pure (value a b)) session st).1 ↔
      Reports (Act.run party m session st).1 ∧
        ∀ a, (Act.run party m session st).1 = .ok a → Reports (e a) := by
  rw [Act.run_bind]
  rcases Act.run party m session st with ⟨fault | a, session', st'⟩
  · exact ⟨fun h => ⟨h, nofun⟩, fun h => h.1⟩
  · dsimp only
    rw [reports_liftM_bind_iff]
    exact ⟨fun h => ⟨trivial, fun _ ha => Except.ok.inj ha ▸ h.1⟩,
      fun h => ⟨h.2 a rfl, fun _ _ => trivial⟩⟩

/-- Where the service opens spreadsheets and worksheets, or answers with a fault that is known for that, opening
a table ends with the table or with a fault of the configuration just if the options suit. -/
theorem reports_run_iff (hparty : party.Opens) (session : Session) (st : σ) (options : Entries Value)
    (environment : Option Text) (tokens : TokenSource) :
    Reports (Act.run party (Opening.run none options environment tokens) session st).1 ↔
      Suited party session st options environment := by
  rw [Opening.run, reports_liftM_bind_iff, reports_settingsOf_iff]
  constructor
  · rintro ⟨⟨hnames, hconfig, hrow⟩, hsettings⟩
    have hsteps : ∀ s, settingsOf none options = .ok s →
        (s.store.IsTextual ∧ NamesSheet party session st s environment) ∧
        ∀ opened, (Act.run party (openSheet s environment) session st).1 = .ok opened →
          (opened.1.plain ++ "\x00" ++ opened.2.plain).string?.isSome = true ∧ s.lockFolder.IsTextual := by
      intro s hs
      obtain ⟨hopened, hpath⟩ := reports_bind_liftM_iff.mp (hsettings s hs)
      exact ⟨(reports_openSheet_iff hparty).mp hopened, fun opened hopened =>
        reports_pathOf_iff.mp (hpath opened hopened)⟩
    exact ⟨hnames, hconfig, hrow, fun s hs => (hsteps s hs).1.1, fun s hs => (hsteps s hs).1.2,
      fun s hs store title hopened => ((hsteps s hs).2 _ hopened).2,
      fun s hs store title hopened => ((hsteps s hs).2 _ hopened).1⟩
  · rintro ⟨hnames, hconfig, hrow, hstore, hsheet, hfolder, hencodable⟩
    refine ⟨⟨hnames, hconfig, hrow⟩, fun s hs => reports_bind_liftM_iff.mpr ⟨?_, fun opened hopened => ?_⟩⟩
    · exact (reports_openSheet_iff hparty).mpr ⟨hstore s hs, hsheet s hs⟩
    · exact reports_pathOf_iff.mpr ⟨hencodable s hs _ _ hopened, hfolder s hs _ _ hopened⟩

/-! ## A service with one worksheet -/

/-- A service that has the spreadsheet `1AbC` with the worksheet `Users`. -/
def soleSheet : Party Unit where
  answer
    | .openStore true _, st => (.error (.told .addressWithoutKey "no key" .null []), st)
    | .openStore false locator, st =>
      (if locator = "1AbC" then .ok (.text "1AbC") else .error (.told .storeMissing "none" .null []), st)
    | .openSheet title, st =>
      (if title.isNull || title.equals (.text "Users") then .ok (.text "Users")
        else .error (.told .sheetMissing "none" .null []), st)
    | .acquire _, st => (.ok true, st)
    | .release, st => (.ok (), st)
    | .extent, st => ((1000, 26), st)
    | .readRows, st => (.ok [], st)
    | .write _, st => (.ok (), st)
    | .query _, st => (.ok .null, st)
    | .credentials, st => (⟨true, .null⟩, st)
    | .refreshCredentials, st => (.ok (), st)
    | .get _, st => (.ok ⟨.int 200, .null⟩, st)
    | .wait _, st => (.ok (), st)

theorem opens_soleSheet : soleSheet.Opens where
  store byAddress locator st := by
    cases byAddress with
    | true => exact Or.inr (Or.inr rfl)
    | false =>
      change Ends _ _ (if _ then _ else _)
      split
      · trivial
      · exact Or.inr (Or.inl rfl)
  sheet title st := by
    change Ends _ _ (if _ then _ else _)
    split
    · trivial
    · exact Or.inr rfl

theorem reports_run_users : soleSheet.Opens ∧
    (Reports (Act.run soleSheet (Opening.run none [(.text "storeLocator", .text "1AbC")] none
        (.fixed (.text "token"))) Session.fresh ()).1 ∧
      Suited soleSheet Session.fresh () [(.text "storeLocator", .text "1AbC")] none) := by
  have hrun : Reports (Act.run soleSheet (Opening.run none [(.text "storeLocator", .text "1AbC")] none
      (.fixed (.text "token"))) Session.fresh ()).1 := by trivial
  exact ⟨opens_soleSheet, hrun, (reports_run_iff opens_soleSheet _ _ _ _ _).mp hrun⟩

/-- A number as the locator of the spreadsheet, or as the folder of lock files, is no fault of the
configuration. -/
theorem run_fails_at_number : soleSheet.Opens ∧
    (Act.run soleSheet (Opening.run none [(.text "store_locator", .int 5)] none (.fixed (.text "token")))
      Session.fresh ()).1 = .error .unsuitable ∧
    (Act.run soleSheet (Opening.run none [(.text "store_locator", .text "1AbC"), (.text "lock_dir", .int 5)] none
      (.fixed (.text "token"))) Session.fresh ()).1 = .error .unsuitable :=
  ⟨opens_soleSheet, rfl, rfl⟩

end Opening

end RowStore
