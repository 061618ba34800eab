import RowStore.Grid.Basic
import RowStore.Proofs.Number.Rational
import RowStore.Proofs.Sheet.Solo
import RowStore.Proofs.Table.Sample

/-!
# Repeated calls on a script

* `Grid.Rehearses party call outcomes sleep diary` : with this party the call comes out as a script says and a wait as
  its length says, and the diary of the party tells the calls and waits;
* `Grid.HasPause`, `Grid.doubled` : the waits between the calls, and whether there is one after so many of them;
  `Grid.Waits` : whether it is made;
* `Grid.run_attempts_passing` : as long as the calls fail for a passing reason, they and the waits after them follow
  one another; `run_attempts_settled`, `run_attempts_spent`, `run_attempts_broken` and `run_attempts_refused` are the
  four ends of the loop;
* `Grid.retrying_backs_off` : which call is the last one, what is waited before it, and how the loop ends.
-/

namespace RowStore.Grid

open Act

/-- What a loop does outside of itself. -/
inductive Step
  | call
  | wait (seconds : Value)

def Step.isCall : Step → Bool
  | .call => true
  | .wait _ => false

section

variable {α σ : Type} {party : Party σ} {call : Act α} {outcomes : Nat → Except Fault α} {g : Grid}
  {description : Text} {s : Session} {st : σ} {n r left attempt : Nat} {last : Option Fault}
  {sleep : Value → Except Fault Unit} {diary : σ → List Step} {delays : Nat → Value}

/-! ## Scripts -/

/-- An outcome after which a call is repeated. -/
def IsPassing (outcome : Except Fault α) : Prop := ∃ fault, outcome = .error fault ∧ fault.kind.isTransient = true

/-- With `r` repetitions the call `n`, counted from zero, is the last one: those before it fail for a passing reason,
and it does not unless no repetition is left. -/
structure IsLast (outcomes : Nat → Except Fault α) (r n : Nat) : Prop where
  le : n ≤ r
  passing : ∀ j < n, IsPassing (outcomes j)
  ends : n = r ∨ ¬ IsPassing (outcomes n)

theorem exists_isLast (outcomes : Nat → Except Fault α) (r : Nat) : ∃ n, IsLast outcomes r n := by
  induction r with
  | zero => exact ⟨0, Nat.le_refl 0, nofun, Or.inl rfl⟩
  | succ r ih =>
    obtain ⟨n, hle, hpassing, hends⟩ := ih
    by_cases hn : IsPassing (outcomes n)
    · obtain rfl : n = r := hends.resolve_right (not_not_intro hn)
      refine ⟨n + 1, Nat.le_refl _, fun j hj => ?_, Or.inl rfl⟩
      rcases Nat.lt_succ_iff_lt_or_eq.mp hj with hj | rfl
      · exact hpassing j hj
      · exact hn
    · exact ⟨n, Nat.le_succ_of_le hle, hpassing, Or.inr hn⟩

theorem IsLast.unique {m : Nat} (hm : IsLast outcomes r m) (hn : IsLast outcomes r n) : m = n := by
  rcases Nat.lt_trichotomy m n with hlt | heq | hlt
  · exact absurd (hn.passing m hlt) (hm.ends.resolve_left (Nat.ne_of_lt (Nat.lt_of_lt_of_le hlt hn.le)))
  · exact heq
  · exact absurd (hm.passing n hlt) (hn.ends.resolve_left (Nat.ne_of_lt (Nat.lt_of_lt_of_le hlt hm.le)))

/-- The last call fails for a passing reason just if all of the calls that may be made do. -/
theorem IsLast.isPassing_iff (h : IsLast outcomes r n) :
    IsPassing (outcomes n) ↔ ∀ j ≤ r, IsPassing (outcomes j) := by
  constructor
  · intro hn j hj
    obtain rfl : n = r := h.ends.resolve_right (not_not_intro hn)
    rcases Nat.lt_or_eq_of_le hj with hj | rfl
    · exact h.passing j hj
    · exact hn
  · exact fun hall => hall n h.le

/-- With this party the call that is made after `k` others comes out as the script says at `k`, and a wait may be
refused for its length. The diary, which is kept in the state of the party, tells the calls and the waits that are asked
for. -/
structure Rehearses (party : Party σ) (call : Act α) (outcomes : Nat → Except Fault α)
    (sleep : Value → Except Fault Unit) (diary : σ → List Step) : Prop where
  outcome : ∀ s st, (run party call s st).1 = outcomes ((diary st).countP Step.isCall)
  called : ∀ s st, diary (run party call s st).2.2 = diary st ++ [.call]
  slept : ∀ seconds st, (party.answer (.wait seconds) st).1 = sleep seconds
  waited : ∀ seconds st, diary (party.answer (.wait seconds) st).2 = diary st ++ [.wait seconds]

/-! ## Waits -/

/-- A number of seconds, doubled so many times. -/
def doubled (base : Value) (attempt : Nat) : Value :=
  match base with
  | .real x => .real (x.times (2 ^ attempt))
  | v => .int (v.integer?.getD 0 * 2 ^ attempt)

/-- Whether the grid can ask for the wait after so many repetitions. The power of two has to have a double if the
number of seconds is one, and else the wait itself. -/
def HasPause (base : Value) (attempt : Nat) : Prop :=
  match base with
  | .real _ => attempt < 1024
  | v => (Binary64.ofInt? (v.integer?.getD 0 * 2 ^ attempt)).isSome = true

/-- Whether the grid waits after so many repetitions: it can ask for the wait, which is not refused. -/
structure Waits (base : Value) (sleep : Value → Except Fault Unit) (attempt : Nat) : Prop where
  pause : HasPause base attempt
  slept : sleep (doubled base attempt) = .ok ()

/-- A wait is the given one times a power of two, or infinite where that is beyond the doubles. -/
theorem number?_doubled {base : Value} {v : ℚ} (hbase : base.number? = some v) (attempt : Nat) :
    (doubled base attempt).number? = some (v * 2 ^ attempt) ∨
      2 ^ (1024 : Nat) ≤ |v| * 2 ^ attempt ∧ ∃ negative, doubled base attempt = .real (.infinite negative) := by
  have hinteger : ∀ n : Int, (Value.int n).number? = some v →
      (Value.int (n * 2 ^ attempt)).number? = some (v * 2 ^ attempt) := by
    intro n hn
    obtain rfl : (n : ℚ) = v := Option.some.inj hn
    have hcast : ((n * 2 ^ attempt : Int) : ℚ) = n * 2 ^ attempt := by
      rw [Int.cast_mul, Int.cast_pow, Int.cast_ofNat]
    exact congrArg some hcast
  cases base with
  | real x =>
    rcases lt_or_ge (|v| * 2 ^ attempt) (2 ^ (1024 : Nat)) with hlt | hle
    · exact Or.inl (Binary64.value?_times_two_pow hbase hlt)
    · obtain ⟨negative, hinfinite⟩ := Binary64.times_two_pow_eq_infinite hbase hle
      exact Or.inr ⟨hle, negative, congrArg Value.real hinfinite⟩
  | int n => exact Or.inl (hinteger n hbase)
  | bool b => exact Or.inl (hinteger _ hbase)
  | _ => cases hbase

theorem delayText_int (m : Int) : delayText (.int m) = (Value.inRange (Binary64.ofInt? m)).map (·.fixedText 1) := rfl

theorem delayOf_of_integer? {base : Value} {m : Int} (hm : base.integer? = some m) :
    delayOf base attempt = .ok (.int (m * 2 ^ attempt)) ∧ doubled base attempt = .int (m * 2 ^ attempt) ∧
      (HasPause base attempt ↔ (Binary64.ofInt? (m * 2 ^ attempt)).isSome = true) := by
  cases base with
  | int n =>
    obtain rfl := Option.some.inj hm
    exact ⟨rfl, rfl, Iff.rfl⟩
  | bool b =>
    obtain rfl := Option.some.inj hm
    exact ⟨rfl, rfl, Iff.rfl⟩
  | _ => cases hm

/-- A wait that the grid makes has the doubled length, and the log tells it. -/
theorem delay_of_hasPause {base : Value} (hbase : base.isNumber = true) (h : HasPause base attempt) :
    delayOf base attempt = .ok (doubled base attempt) ∧ ∃ text, delayText (doubled base attempt) = .ok text := by
  have hinteger : ∀ m, base.integer? = some m →
      delayOf base attempt = .ok (doubled base attempt) ∧ ∃ text, delayText (doubled base attempt) = .ok text := by
    intro m hm
    obtain ⟨hdelay, hdoubled, hiff⟩ := delayOf_of_integer? hm
    obtain ⟨x, hx⟩ := Option.isSome_iff_exists.mp (hiff.mp h)
    rw [hdelay, hdoubled, delayText_int, hx]
    exact ⟨rfl, x.fixedText 1, rfl⟩
  cases base with
  | real x =>
    rw [delayOf, if_pos (Binary64.isSome_ofInt?_two_pow_iff.mpr h)]
    exact ⟨rfl, _, rfl⟩
  | int n => exact hinteger n rfl
  | bool b => exact hinteger _ rfl
  | _ => cases hbase

/-- Where the grid cannot wait, a number is beyond those that a double can be near. -/
theorem delay_of_not_hasPause {base : Value} (hbase : base.isNumber = true) (h : ¬ HasPause base attempt) :
    delayOf base attempt = .error .overflow ∨
      ∃ delay, delayOf base attempt = .ok delay ∧ delayText delay = .error .overflow := by
  have hinteger : ∀ m, base.integer? = some m →
      ∃ delay, delayOf base attempt = .ok delay ∧ delayText delay = .error .overflow := by
    intro m hm
    obtain ⟨hdelay, -, hiff⟩ := delayOf_of_integer? hm
    -- whoever uses this keeps the wait as a variable, which no check by computation can round
    refine ⟨_, hdelay, ?_⟩
    rw [delayText_int, Option.not_isSome_iff_eq_none.mp (mt hiff.mpr h)]
    rfl
  cases base with
  | real x => exact Or.inl (by rw [delayOf, if_neg (mt Binary64.isSome_ofInt?_two_pow_iff.mp h)])
  | int n => exact Or.inr (hinteger n rfl)
  | bool b => exact Or.inr (hinteger _ rfl)
  | _ => cases hbase

theorem run_pause (party : Party σ) (hbase : g.baseDelay.isNumber = true) (h : HasPause g.baseDelay attempt)
    (description : Text) (fault : Fault) (s : Session) (st : σ) :
    ∃ s', run party (g.pause description attempt fault) s st =
      ((party.answer (.wait (doubled g.baseDelay attempt)) st).1, s',
        (party.answer (.wait (doubled g.baseDelay attempt)) st).2) := by
  obtain ⟨hdelay, text, htext⟩ := delay_of_hasPause hbase h
  rw [pause, run_bind, run_liftExcept, hdelay]
  dsimp only
  rw [run_bind, run_liftExcept, htext]
  dsimp only
  rw [run_bind, run_note]
  dsimp only
  rw [run_ofAnswer_ask]
  exact ⟨_, rfl⟩

theorem run_pause_of_not (party : Party σ) (hbase : g.baseDelay.isNumber = true) (h : ¬ HasPause g.baseDelay attempt)
    (description : Text) (fault : Fault) (s : Session) (st : σ) :
    run party (g.pause description attempt fault) s st = (.error .overflow, s, st) := by
  rw [pause, run_bind, run_liftExcept]
  rcases delay_of_not_hasPause hbase h with hdelay | ⟨delay, hdelay, htext⟩
  · rw [hdelay]
  · rw [hdelay]
    dsimp only
    rw [run_bind, run_liftExcept, htext]

/-! ## The loop -/

/-- So many calls, each with the wait after it. -/
def rounds (delays : Nat → Value) (n : Nat) : List Step := (List.range n).flatMap fun j => [.call, .wait (delays j)]

theorem rounds_succ (delays : Nat → Value) (n : Nat) :
    rounds delays (n + 1) = rounds delays n ++ [.call] ++ [.wait (delays n)] := by
  rw [rounds, List.range_succ, List.flatMap_append, List.flatMap_singleton, List.append_assoc]
  rfl

theorem countP_rounds (delays : Nat → Value) (n : Nat) : (rounds delays n).countP Step.isCall = n := by
  induction n with
  | zero => rfl
  | succ n ih =>
    rw [rounds_succ, List.countP_append, List.countP_append, ih]
    rfl

/-- The call after `n` rounds comes out as the script says at `n`. -/
theorem Rehearses.run_call (h : Rehearses party call outcomes sleep diary) (s : Session)
    (hst : diary st = rounds delays n) :
    ∃ s' st', run party call s st = (outcomes n, s', st') ∧ diary st' = rounds delays n ++ [.call] := by
  have houtcome := h.outcome s st
  have hcalled := h.called s st
  rw [hst, countP_rounds] at houtcome
  rw [hst] at hcalled
  exact ⟨_, _, Prod.ext houtcome rfl, hcalled⟩

theorem run_attempts_succ (s : Session) (st : σ) :
    run party (attempts g description call (left + 1) attempt last) s st =
      match run party call s st with
      | (.ok a, s', st') => (.ok a, s', st')
      | (.error fault, s', st') => run party (do
          if fault.kind.isTransient then
            if left ≠ 0 then g.pause description attempt fault
            attempts g description call left (attempt + 1) (some fault)
          else throw fault) s' st' := by
  rw [attempts, run_bind, run_observe]
  rcases run party call s st with ⟨_ | a, s', st'⟩ <;> rfl

/-- A call that does not fail for a passing reason ends the loop, which comes out as the call does. -/
theorem run_attempts_settled (h : Rehearses party call outcomes sleep diary) (hst : diary st = rounds delays n)
    (hn : ¬ IsPassing (outcomes n)) (s : Session) :
    let after := run party (attempts g description call (left + 1) n last) s st
    after.1 = outcomes n ∧ diary after.2.2 = rounds delays n ++ [.call] := by
  obtain ⟨s', st', hrun, hdiary⟩ := h.run_call s hst
  rw [run_attempts_succ, hrun]
  cases houtcome : outcomes n with
  | ok a => exact ⟨rfl, hdiary⟩
  | error fault =>
    have hkind : ¬ fault.kind.isTransient = true := fun hkind => hn ⟨fault, houtcome, hkind⟩
    dsimp only
    rw [if_neg hkind]
    exact ⟨rfl, hdiary⟩

/-- When no call is left, the loop ends with the last fault. -/
theorem run_attempts_spent (h : Rehearses party call outcomes sleep diary) (hst : diary st = rounds delays n)
    {fault : Fault} (hn : outcomes n = .error fault) (hkind : fault.kind.isTransient = true) (s : Session) :
    let after := run party (attempts g description call 1 n last) s st
    after.1 = .error (Fault.worded (.service (.attemptsFailed description (n + 1) (some fault.message)))) ∧
      diary after.2.2 = rounds delays n ++ [.call] := by
  obtain ⟨s', st', hrun, hdiary⟩ := h.run_call s hst
  rw [run_attempts_succ, hrun, hn]
  dsimp only
  rw [if_pos hkind, if_neg (not_not_intro rfl), attempts]
  exact ⟨rfl, hdiary⟩

/-- A loop that cannot ask for a wait ends there. -/
theorem run_attempts_broken (h : Rehearses party call outcomes sleep diary) (hst : diary st = rounds delays n)
    (hn : IsPassing (outcomes n)) (hbase : g.baseDelay.isNumber = true) (hpause : ¬ HasPause g.baseDelay n)
    (s : Session) :
    let after := run party (attempts g description call (left + 2) n last) s st
    after.1 = .error .overflow ∧ diary after.2.2 = rounds delays n ++ [.call] := by
  obtain ⟨s', st', hrun, hdiary⟩ := h.run_call s hst
  obtain ⟨fault, hfault, hkind⟩ := hn
  rw [run_attempts_succ, hrun, hfault]
  dsimp only
  rw [if_pos hkind, if_pos (Nat.succ_ne_zero left), run_bind, run_pause_of_not party hbase hpause]
  exact ⟨rfl, hdiary⟩

/-- A loop to which a wait is refused ends there, too. -/
theorem run_attempts_refused (h : Rehearses party call outcomes sleep diary)
    (hst : diary st = rounds (doubled g.baseDelay) n) (hn : IsPassing (outcomes n))
    (hbase : g.baseDelay.isNumber = true) (hpause : HasPause g.baseDelay n) {refusal : Fault}
    (hsleep : sleep (doubled g.baseDelay n) = .error refusal) (s : Session) :
    let after := run party (attempts g description call (left + 2) n last) s st
    after.1 = .error refusal ∧ diary after.2.2 = rounds (doubled g.baseDelay) (n + 1) := by
  obtain ⟨s', st', hrun, hdiary⟩ := h.run_call s hst
  obtain ⟨fault, hfault, hkind⟩ := hn
  obtain ⟨s'', hwait⟩ := run_pause party hbase hpause description fault s' st'
  rw [h.slept, hsleep] at hwait
  rw [run_attempts_succ, hrun, hfault]
  dsimp only
  rw [if_pos hkind, if_pos (Nat.succ_ne_zero left), run_bind, hwait]
  exact ⟨rfl, by rw [h.waited, hdiary, rounds_succ]⟩

/-- One turn of the loop: a call that fails for a passing reason, and the wait after it. -/
theorem run_attempts_turn (h : Rehearses party call outcomes sleep diary)
    (hst : diary st = rounds (doubled g.baseDelay) n) (hn : IsPassing (outcomes n))
    (hbase : g.baseDelay.isNumber = true) (hwaits : Waits g.baseDelay sleep n) (s : Session) :
    ∃ last' s' st', run party (attempts g description call (left + 2) n last) s st =
        run party (attempts g description call (left + 1) (n + 1) last') s' st' ∧
      diary st' = rounds (doubled g.baseDelay) (n + 1) := by
  obtain ⟨s', st', hrun, hdiary⟩ := h.run_call s hst
  obtain ⟨fault, hfault, hkind⟩ := hn
  obtain ⟨s'', hwait⟩ := run_pause party hbase hwaits.pause description fault s' st'
  rw [h.slept, hwaits.slept] at hwait
  refine ⟨some fault, s'', (party.answer (.wait (doubled g.baseDelay n)) st').2, ?_, ?_⟩
  · rw [run_attempts_succ, hrun, hfault]
    dsimp only
    rw [if_pos hkind, if_pos (Nat.succ_ne_zero left), run_bind, hwait]
  · rw [h.waited, hdiary, rounds_succ]

/-- As long as the calls fail for a passing reason and there are waits, the loop goes through its rounds. -/
theorem run_attempts_passing (h : Rehearses party call outcomes sleep diary) (hst : diary st = [])
    (hbase : g.baseDelay.isNumber = true) (n : Nat)
    (hn : ∀ j < n, IsPassing (outcomes j) ∧ Waits g.baseDelay sleep j) (left : Nat) (description : Text) (s : Session) :
    ∃ last' s' st', run party (attempts g description call (n + left + 1) 0 none) s st =
        run party (attempts g description call (left + 1) n last') s' st' ∧
      diary st' = rounds (doubled g.baseDelay) n := by
  -- on the number of rounds: the last of them is one turn of the loop that has come through the others
  induction n generalizing left with
  | zero => exact ⟨none, s, st, by rw [Nat.zero_add], hst⟩
  | succ n ih =>
    obtain ⟨last, s₁, st₁, hrun, hst₁⟩ := ih (fun j hj => hn j (Nat.lt_succ_of_lt hj)) (left + 1)
    obtain ⟨hpassing, hwaits⟩ := hn n (Nat.lt_succ_self n)
    obtain ⟨last', s', st', hturn, hst'⟩ := run_attempts_turn h hst₁ hpassing hbase hwaits s₁
    exact ⟨last', s', st', by rw [Nat.succ_add_eq_add_succ n left, hrun, hturn], hst'⟩

theorem run_retrying (hretries : g.maxRetries.integer? = some (r : Int)) (description : Text) (call : Act α)
    (s : Session) (st : σ) : run party (g.retrying description call) s st =
      run party (attempts g description call (r + 1) 0 none) s st := by
  have hneg : ¬ (r : Int) < 0 := by omega
  rw [retrying, run_bind, run_liftExcept, hretries]
  dsimp only [Value.expected]
  rw [if_neg hneg]
  rfl

/-- The grid comes to any call such that those before it fail for a passing reason and there is a wait after each. -/
theorem run_retrying_passing (h : Rehearses party call outcomes sleep diary) (hst : diary st = [])
    (hbase : g.baseDelay.isNumber = true) (hretries : g.maxRetries.integer? = some ((n + left : Nat) : Int))
    (hpassing : ∀ j < n, IsPassing (outcomes j)) (hwaits : ∀ j < n, Waits g.baseDelay sleep j) (description : Text)
    (s : Session) :
    ∃ last s' st', run party (g.retrying description call) s st =
        run party (attempts g description call (left + 1) n last) s' st' ∧
      diary st' = rounds (doubled g.baseDelay) n := by
  obtain ⟨last, s', st', hrun, hst'⟩ :=
    run_attempts_passing h hst hbase n (fun j hj => ⟨hpassing j hj, hwaits j hj⟩) left description s
  exact ⟨last, s', st', (run_retrying hretries description call s st).trans hrun, hst'⟩

/-- Where the grid would have to ask for a wait and cannot, a number is out of range. -/
theorem run_retrying_broken (h : Rehearses party call outcomes sleep diary) (hst : diary st = [])
    (hbase : g.baseDelay.isNumber = true) (hretries : g.maxRetries.integer? = some (r : Int)) (hn : n < r)
    (hpassing : ∀ j ≤ n, IsPassing (outcomes j)) (hwaits : ∀ j < n, Waits g.baseDelay sleep j)
    (hbroken : ¬ HasPause g.baseDelay n) (description : Text) (s : Session) :
    let after := run party (g.retrying description call) s st
    after.1 = .error .overflow ∧ diary after.2.2 = rounds (doubled g.baseDelay) n ++ [.call] := by
  obtain ⟨left, rfl⟩ : ∃ left, r = n + (left + 1) := ⟨r - n - 1, by omega⟩
  obtain ⟨last, s', st', hrun, hst'⟩ :=
    run_retrying_passing h hst hbase hretries (fun j hj => hpassing j (Nat.le_of_lt hj)) hwaits description s
  rw [hrun]
  exact run_attempts_broken h hst' (hpassing n (Nat.le_refl n)) hbase hbroken s'

/-- Where a wait is refused, the loop ends with that fault. -/
theorem run_retrying_refused (h : Rehearses party call outcomes sleep diary) (hst : diary st = [])
    (hbase : g.baseDelay.isNumber = true) (hretries : g.maxRetries.integer? = some (r : Int)) (hn : n < r)
    (hpassing : ∀ j ≤ n, IsPassing (outcomes j)) (hwaits : ∀ j < n, Waits g.baseDelay sleep j)
    (hpause : HasPause g.baseDelay n) {refusal : Fault} (hsleep : sleep (doubled g.baseDelay n) = .error refusal)
    (description : Text) (s : Session) :
    let after := run party (g.retrying description call) s st
    after.1 = .error refusal ∧ diary after.2.2 = rounds (doubled g.baseDelay) (n + 1) := by
  obtain ⟨left, rfl⟩ : ∃ left, r = n + (left + 1) := ⟨r - n - 1, by omega⟩
  obtain ⟨last, s', st', hrun, hst'⟩ :=
    run_retrying_passing h hst hbase hretries (fun j hj => hpassing j (Nat.le_of_lt hj)) hwaits description s
  rw [hrun]
  exact run_attempts_refused h hst' (hpassing n (Nat.le_refl n)) hbase hpause hsleep s'

end

/-! ## A party on a script -/

/-- How the clock of a host takes a wait: it refuses what is not a number, more nanoseconds than 63 bits count, and
negative lengths. -/
def Rehearsal.clock (seconds : Value) : Except Fault Unit :=
  match seconds with
  | .real (.nan _) => .error .malformed
  | seconds =>
    match seconds.number? with
    | none => .error .overflow
    | some v => if 2 ^ 63 ≤ |v| * 10 ^ 9 then .error .overflow else if v < 0 then .error .malformed else .ok ()

theorem Rehearsal.clock_of_number? {seconds : Value} {v : ℚ} (h : seconds.number? = some v) (hv : 0 ≤ v)
    (hlt : v * 10 ^ 9 < 2 ^ 63) : clock seconds = .ok () := by
  have hnan : clock seconds = (match seconds.number? with
      | none => .error .overflow
      | some v =>
        if 2 ^ 63 ≤ |v| * 10 ^ 9 then .error .overflow else if v < 0 then .error .malformed else .ok ()) := by
    cases seconds with
    | real x => cases x <;> first | rfl | cases h
    | _ => rfl
  rw [hnan, h]
  dsimp only
  rw [abs_of_nonneg hv, if_neg (not_le.mpr hlt), if_neg (not_lt.mpr hv)]

/-- Reads come out as a script says and waits as the clock takes them, and they are noted down. Other requests are
answered as on a sheet without rows. -/
def Rehearsal.answer (outcomes : Nat → Except Fault Rows) {β : Type} : Request β → List Step → β × List Step
  | .readRows, steps => (outcomes (steps.countP Step.isCall), steps ++ [.call])
  | .wait seconds, steps => (clock seconds, steps ++ [.wait seconds])
  | r, steps => ((Solo.answer (fun _ => (0, 0)) r ⟨[], []⟩).1, steps)

def Rehearsal.party (outcomes : Nat → Except Fault Rows) : Party (List Step) := ⟨Rehearsal.answer outcomes⟩

/-- Every script is rehearsed. -/
theorem Rehearsal.rehearses (outcomes : Nat → Except Fault Rows) :
    Rehearses (Rehearsal.party outcomes) (ofAnswer (ask .readRows)) outcomes Rehearsal.clock fun steps => steps where
  outcome s steps := by
    rw [run_ofAnswer_ask]
    rfl
  called s steps := by
    rw [run_ofAnswer_ask]
    rfl
  slept _ _ := rfl
  waited _ _ := rfl

/-- A service that is busy. -/
def busy : Fault := .told .service "busy" .null []

end RowStore.Grid
