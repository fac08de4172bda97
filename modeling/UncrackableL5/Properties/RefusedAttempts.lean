import UncrackableL5.Properties.SingleUse

/-!
# Refused attempts

A request calls `consume` behind the verifier and the second check of its challenge, so every
earlier way out of the handler leaves the replay table alone. A call that is refused purges and
adds nothing. What a later request finds is therefore decided by the calls that were granted.

## Main results

- `consume_rows`, `consume_fresh`: what a call does to the rows, and when it is granted.
- `Service.Stepped.progress`: one event keeps what a request has behind it.
- `refused_attempts_keep_challenge`: refused requests add no row, and a valid request for a
  challenge that was not consumed is granted.
-/
namespace UncrackableL5

open Transition
open Challenges (issuedAt expiresAtSeconds)

/-! ### Rows -/

/-- What `DELETE FROM used_challenges WHERE expires_at < nowSeconds - 60` leaves. -/
def unexpiredRows (used : UsedChallenges) (nowSeconds : Number) : UsedChallenges :=
  used.filter fun row => ¬row.2 < nowSeconds.sub (.finite 60)

/-- A call adds its row when it is granted, and otherwise purges at most. -/
theorem consume_rows (used : UsedChallenges) (id : JsString) (expiresAt nowSeconds : Number) :
    (consume used id expiresAt nowSeconds).1 = .ok true ∧
        (consume used id expiresAt nowSeconds).2 =
          unexpiredRows used nowSeconds ++ [(id, expiresAt)] ∨
      (consume used id expiresAt nowSeconds).1 ≠ .ok true ∧
        ((consume used id expiresAt nowSeconds).2 = used ∨
          (consume used id expiresAt nowSeconds).2 = unexpiredRows used nowSeconds) := by
  simp only [consume, notNull]
  split
  next => exact Or.inr ⟨by simp, Or.inl rfl⟩
  next =>
    split
    next => exact Or.inr ⟨by simp, Or.inr rfl⟩
    next =>
      split
      next => exact Or.inr ⟨by simp, Or.inr rfl⟩
      next stored =>
        split at stored
        next => cases stored
        next =>
          cases stored
          exact Or.inl ⟨rfl, rfl⟩

/-- Only a row of its own id stands in the way of a well-formed call. -/
theorem consume_fresh {used : UsedChallenges} {id : JsString} {expiresAt nowSeconds : Number}
    (wellFormed : isSha256Hex id = true) (number : expiresAt ≠ .nan)
    (fresh : ∀ row ∈ used, row.1 ≠ id) : (consume used id expiresAt nowSeconds).1 = .ok true := by
  have absent : ¬((used.filter fun row => ¬row.2 < nowSeconds.sub (.finite 60)).any
      fun row => row.1 = id) = true := by
    intro found
    obtain ⟨row, kept, same⟩ := List.any_eq_true.mp found
    exact fresh row (List.mem_filter.mp kept).1 (of_decide_eq_true same)
  simp only [consume, notNull, wellFormed, if_neg absent, if_neg number, not_true_eq_false,
    ↓reduceIte]

/-! ### What a request has behind it -/

variable {CryptoKey : Type}

/-- The request has made no call, or its call was not granted. -/
def AttestPhase.ungranted : AttestPhase → Prop
  | .verifying _ | .lookingUp _ _ | .attesting _ _ _ | .reverifying _ _ | .hashing _ => True
  | .consumed _ outcome => outcome ≠ .ok true
  | _ => False

/-- The request was answered, or will never be. -/
def AttestPhase.ended : AttestPhase → Prop
  | .done _ | .dropped => True
  | _ => False

/-- The request's call was granted, or the request has ended. -/
def AttestPhase.spent : AttestPhase → Prop
  | .consumed _ outcome => outcome = .ok true
  | .confirming _ _ => True
  | phase => phase.ended

/-- The request that an event belongs to. -/
def ServiceEvent.request : ServiceEvent → Option Nat
  | .resume i _ | .consume i => some i
  | _ => none

private theorem spent_not_ungranted {phase : AttestPhase} (spent : phase.spent)
    (ungranted : phase.ungranted) : False := by
  cases phase with
  | consumed => exact ungranted spent
  | done | dropped | confirming | consuming => exact ungranted
  | _ => exact spent

namespace Service

/-- `AndroidVerifier.verify` returns 2 for request `i`, with these challenge octets. -/
def Attests (host : Host CryptoKey) (rt : Runtime) (i : Nat) (request : AttestRequest)
    (bytes : Bytes) (s : Service) (event : ServiceEvent) : Prop :=
  ∃ snapshot nowMs nowSeconds, event = .resume i (.value nowSeconds) ∧
    s.attempts[i]? = some { request := request, phase := .attesting bytes snapshot nowMs } ∧
    rt.verifier.verify host request bytes snapshot nowMs = .ok 2

/-- The second check accepts the challenge of request `i`, at the reading before its call. -/
def Rechecks (rt : Runtime) (i : Nat) (request : AttestRequest) (bytes : Bytes) (s : Service)
    (event : ServiceEvent) : Prop :=
  ∃ nowSeconds next, event = .resume i (.value next) ∧
    s.attempts[i]? = some { request := request, phase := .reverifying bytes nowSeconds } ∧
    rt.challenges.Accepts request.challenge nowSeconds bytes

/-- The object grants the call of request `i`. -/
def Grants (i : Nat) (id : JsString) (s : Service) (event : ServiceEvent) : Prop :=
  event = .consume i ∧ ∃ a bytes expiresAt, ∃ nowSeconds : Int, s.attempts[i]? = some a ∧
    a.phase = .consuming bytes id expiresAt nowSeconds ∧
    (UncrackableL5.consume s.used id expiresAt nowSeconds).1 = .ok true

/-- The object grants a call for this id, whoever made it. -/
def Consumes (id : JsString) (s : Service) (event : ServiceEvent) : Prop :=
  (∃ i, Grants i id s event) ∨ ∃ expiresAt, ∃ nowSeconds : Int,
    event = .call id expiresAt nowSeconds ∧
    (UncrackableL5.consume s.used id expiresAt nowSeconds).1 = .ok true

/-- Request `i` ends without a call, or with one that was not granted. -/
def Refuses (engine : Engine) (host : Host CryptoKey) (rt : Runtime) (i : Nat) (s : Service)
    (event : ServiceEvent) : Prop :=
  ∃ settled a phase, event = .resume i settled ∧ s.attempts[i]? = some a ∧ a.phase.ungranted ∧
    a.resume engine host rt settled = some phase ∧ phase.ended

/-- No row was added, and those that went had expired more than a minute before a reading that an
isolate has taken. -/
def OnlyPurges (s t : Service) : Prop :=
  t.used = s.used ∨ ∃ nowSeconds : Int, IsSecond nowSeconds ∧ (nowSeconds : ℚ) ≤ s.clock + skew ∧
    t.used = unexpiredRows s.used nowSeconds

end Service

/-- The verifier returned 2 for request `i` with these octets, and its challenge passed the second
check. -/
structure Vouched (engine : Engine) (host : Host CryptoKey) (rt : Runtime) (start : Service)
    (past : List ServiceEvent) (i : Nat) (request : AttestRequest) (bytes : Bytes) : Prop where
  attested : Happened (Service.step engine host rt) (Service.Attests host rt i request bytes)
    start past
  rechecked : Happened (Service.step engine host rt) (Service.Rechecks rt i request bytes)
    start past

/-- What the phase of request `i` owes to the events before it. -/
def Attempt.Progress (engine : Engine) (host : Host CryptoKey) (rt : Runtime) (start : Service)
    (past : List ServiceEvent) (i : Nat) (a : Attempt) : Prop :=
  match a.phase with
  | .lookingUp bytes _ | .attesting bytes _ _ => base64UrlDecode a.request.challenge = .ok bytes
  | .reverifying bytes _ => base64UrlDecode a.request.challenge = .ok bytes ∧
      Happened (Service.step engine host rt) (Service.Attests host rt i a.request bytes) start past
  | .hashing bytes | .consuming bytes _ _ _ => Vouched engine host rt start past i a.request bytes
  | _ => True

/-! ### One request -/

variable {engine : Engine} {host : Host CryptoKey} {rt : Runtime} {start s t : Service}
  {past : List ServiceEvent} {event : ServiceEvent} {i : Nat}

namespace Service

/-- What an event does to request `i`. -/
inductive Moves (engine : Engine) (host : Host CryptoKey) (rt : Runtime) (s : Service) (i : Nat)
    (a : Attempt) : ServiceEvent → Attempt → Prop where
  | stays (event : ServiceEvent) (other : event.request ≠ some i) :
      Moves engine host rt s i a event a
  | resumes (settled : Settled) (phase : AttestPhase)
      (resumed : a.Resumed engine host rt settled phase) :
      Moves engine host rt s i a (.resume i settled) { a with phase := phase }
  | consumes (bytes : Bytes) (id : JsString) (expiresAt : Number) (nowSeconds : Int)
      (phase : a.phase = .consuming bytes id expiresAt nowSeconds) :
      Moves engine host rt s i a (.consume i) { a with
        phase := .consumed bytes (UncrackableL5.consume s.used id expiresAt nowSeconds).1 }

/-- A request is there because it has just arrived or because it was there before. -/
theorem Stepped.moves (taken : Stepped engine host rt s event t) {b : Attempt}
    (found : t.attempts[i]? = some b) :
    (s.attempts[i]? = none ∧ ∃ nowSeconds, b.phase = .verifying nowSeconds) ∨
      ∃ a, s.attempts[i]? = some a ∧ Moves engine host rt s i a event b := by
  cases taken with
  | ticked | refused | called => exact Or.inr ⟨b, found, .stays _ nofun⟩
  | arrived body nowSeconds =>
    simp only [List.getElem?_append] at found
    split at found
    · exact Or.inr ⟨b, found, .stays _ nofun⟩
    next past =>
      obtain rfl := List.mem_singleton.mp (List.mem_of_getElem? found)
      exact Or.inl ⟨List.getElem?_eq_none (Nat.le_of_not_lt past), nowSeconds, rfl⟩
  | resumed j a settled phase running admitted resumed =>
    rcases lookup_set found with ⟨rfl, rfl⟩ | ⟨other, present⟩
    · exact Or.inr ⟨a, running, .resumes settled phase resumed⟩
    · exact Or.inr ⟨b, present, .stays _ fun same => other (Option.some.inj same).symm⟩
  | consumed j a bytes id expiresAt nowSeconds running phase =>
    rcases lookup_set found with ⟨rfl, rfl⟩ | ⟨other, present⟩
    · exact Or.inr ⟨a, running, .consumes bytes id expiresAt nowSeconds phase⟩
    · exact Or.inr ⟨b, present, .stays _ fun same => other (Option.some.inj same).symm⟩

/-- No request disappears. -/
theorem Stepped.remains (taken : Stepped engine host rt s event t) {a : Attempt}
    (found : s.attempts[i]? = some a) :
    ∃ b, t.attempts[i]? = some b ∧ Moves engine host rt s i a event b := by
  have bound := (List.getElem?_eq_some_iff.mp found).1
  have longer : i < t.attempts.length := by
    cases taken with
    | ticked | refused | called => exact bound
    | arrived => simp only [List.length_append]; omega
    | resumed | consumed => simpa only [setPhase, List.length_set] using bound
  have there : t.attempts[i]? = some t.attempts[i] := List.getElem?_eq_getElem longer
  rcases taken.moves there with ⟨missing, -⟩ | ⟨a', same, moves⟩
  · cases missing.symm.trans found
  · cases same.symm.trans found
    exact ⟨_, there, moves⟩

/-- What happened has happened also after the next event. -/
private theorem Attempt.progress_snoc {a : Attempt} (taken : Run (step engine host rt) start past s)
    (event : ServiceEvent) (progress : a.Progress engine host rt start past i) :
    a.Progress engine host rt start (past ++ [event]) i := by
  have kept : ∀ {kind : Service → ServiceEvent → Prop},
      Happened (step engine host rt) kind start past →
      Happened (step engine host rt) kind start (past ++ [event]) := fun happened =>
    (happened_snoc taken event).mpr (Or.inl happened)
  obtain ⟨request, phase⟩ := a
  cases phase with
  | reverifying => exact ⟨progress.1, kept progress.2⟩
  | hashing | consuming => exact ⟨kept progress.attested, kept progress.rechecked⟩
  | _ => exact progress

/-- An await takes a request on only behind what the phases before it have established. -/
private theorem progress_of_resumed {a : Attempt} {settled : Settled} {phase : AttestPhase}
    (taken : Run (step engine host rt) start past s) (running : s.attempts[i]? = some a)
    (resumed : a.Resumed engine host rt settled phase)
    (progress : a.Progress engine host rt start past i) :
    Attempt.Progress engine host rt start (past ++ [.resume i settled]) i
      { a with phase := phase } := by
  have progress := Attempt.progress_snoc taken (.resume i settled) progress
  obtain ⟨request, before⟩ := a
  cases resumed with
  | failed | lost | granted | confirmed => trivial
  | verified now next bytes phase accepts => exact accepts.decoded
  | viewed bytes now view serials nowMs phase =>
    obtain rfl : before = _ := phase
    exact progress
  | attested bytes snapshot nowMs next phase accepted =>
    obtain rfl : before = _ := phase
    refine ⟨progress, (happened_snoc taken _).mpr (Or.inr ?_)⟩
    exact ⟨snapshot, nowMs, next, rfl, running, accepted⟩
  | reverified bytes again now next phase accepts =>
    obtain rfl : before = _ := phase
    -- both checks decode the same text
    cases accepts.decoded.symm.trans progress.1
    refine ⟨progress.2, (happened_snoc taken _).mpr (Or.inr ?_)⟩
    exact ⟨now, next, rfl, running, accepts⟩
  | hashed bytes next phase =>
    obtain rfl : before = _ := phase
    exact progress

/-- One event keeps what every request has behind it. -/
theorem Stepped.progress (taken : Run (step engine host rt) start past s)
    (stepped : Stepped engine host rt s event t)
    (progress : ∀ (i : Nat) (a : Attempt), s.attempts[i]? = some a →
      a.Progress engine host rt start past i) :
    ∀ (i : Nat) (a : Attempt), t.attempts[i]? = some a →
      a.Progress engine host rt start (past ++ [event]) i := by
  intro i b found
  rcases stepped.moves found with ⟨-, nowSeconds, arrived⟩ | ⟨a, running, moves⟩
  · rw [Attempt.Progress, arrived]
    trivial
  · have before := progress i a running
    cases moves with
    | stays => exact Attempt.progress_snoc taken event before
    | resumes settled phase resumed => exact progress_of_resumed taken running resumed before
    | consumes => trivial

/-! ### Granted and refused requests -/

/-- A request that is past its call stays so. -/
theorem Moves.spent {a b : Attempt} (moves : Moves engine host rt s i a event b)
    (spent : a.phase.spent) : b.phase.spent := by
  cases moves with
  | stays => exact spent
  | resumes settled phase resumed =>
    cases resumed with
    | failed | lost | confirmed => trivial
    | granted => trivial
    | verified _ _ _ phase | viewed _ _ _ _ _ phase | attested _ _ _ _ phase
    | reverified _ _ _ _ phase | hashed _ _ phase =>
      rw [phase] at spent
      exact spent.elim
  | consumes _ _ _ _ phase =>
    rw [phase] at spent
    exact spent.elim

/-- A request that has ended does nothing more. -/
theorem Moves.ended {a b : Attempt} (moves : Moves engine host rt s i a event b)
    (ended : a.phase.ended) : b.phase.ended := by
  cases moves with
  | stays => exact ended
  | resumes settled phase resumed =>
    cases resumed with
    | failed | lost | confirmed => trivial
    | verified _ _ _ phase | viewed _ _ _ _ _ phase | attested _ _ _ _ phase
    | reverified _ _ _ _ phase | hashed _ _ phase | granted _ _ phase =>
      rw [phase] at ended
      exact ended.elim
  | consumes _ _ _ _ phase =>
    rw [phase] at ended
    exact ended.elim

/-- A request whose call was granted is past it. -/
private theorem spent_of_granted (taken : Run (step engine host rt) start past s) :
    ∀ (i : Nat) (id : JsString), Happened (step engine host rt) (Grants i id) start past →
      ∃ a, s.attempts[i]? = some a ∧ a.phase.spent := by
  refine taken.history (fun past s => ∀ (i : Nat) (id : JsString),
    Happened (step engine host rt) (Grants i id) start past →
      ∃ a, s.attempts[i]? = some a ∧ a.phase.spent)
    (fun i id none => absurd none (happened_nil _)) ?_
  intro past event s t before ih step i id happened
  have stepped := stepped_of_step step
  rcases (happened_snoc before event).mp happened with
    earlier | ⟨rfl, a, bytes, expiresAt, now, found, phase, granted⟩
  · obtain ⟨a, found, spent⟩ := ih i id earlier
    obtain ⟨b, there, moves⟩ := stepped.remains found
    exact ⟨b, there, moves.spent spent⟩
  · obtain ⟨b, there, moves⟩ := stepped.remains found
    cases moves with
    | stays _ other => exact absurd rfl other
    | consumes _ _ _ _ phase' =>
      cases phase.symm.trans phase'
      exact ⟨_, there, granted⟩

private theorem step_resume {a : Attempt} {settled : Settled} {phase : AttestPhase}
    (running : s.attempts[i]? = some a) (resumed : a.resume engine host rt settled = some phase)
    (taken : s.step engine host rt (.resume i settled) = some t) : t = s.setPhase i a phase := by
  simp only [step, running, resumed, Option.map_some] at taken
  split at taken
  next => exact (Option.some.inj taken).symm
  next => cases taken

/-- A request that was refused has ended, and its call was never granted. -/
private theorem ended_of_refused (taken : Run (step engine host rt) start past s) :
    ∀ i, Happened (step engine host rt) (Refuses engine host rt i) start past →
      (∃ a, s.attempts[i]? = some a ∧ a.phase.ended) ∧
        ∀ id, ¬Happened (step engine host rt) (Grants i id) start past := by
  refine taken.history (fun past s => ∀ i,
    Happened (step engine host rt) (Refuses engine host rt i) start past →
      (∃ a, s.attempts[i]? = some a ∧ a.phase.ended) ∧
        ∀ id, ¬Happened (step engine host rt) (Grants i id) start past)
    (fun i none => absurd none (happened_nil _)) ?_
  intro past event s t before ih step i happened
  have stepped := stepped_of_step step
  rcases (happened_snoc before event).mp happened with
    earlier | ⟨settled, a, phase, rfl, found, ungranted, resumed, ended⟩
  · obtain ⟨⟨a, found, ended⟩, never⟩ := ih i earlier
    obtain ⟨b, there, moves⟩ := stepped.remains found
    refine ⟨⟨b, there, moves.ended ended⟩, fun id granted => ?_⟩
    rcases (happened_snoc before event).mp granted with
      earlier | ⟨rfl, a', bytes, expiresAt, now, found', phase, -⟩
    · exact never id earlier
    · -- a request that has ended makes no call
      cases found.symm.trans found'
      rw [phase] at ended
      exact ended
  · obtain rfl := step_resume found resumed step
    refine ⟨⟨_, lookup_setPhase found phase, ended⟩, fun id granted => ?_⟩
    rcases (happened_snoc before _).mp granted with earlier | ⟨call, -⟩
    · -- a granted call would have taken the request past the phases that refuse
      obtain ⟨a', found', spent⟩ := spent_of_granted before i id earlier
      cases found.symm.trans found'
      exact spent_not_ungranted spent ungranted
    · cases call

/-- Every row was there at the start or belongs to a call that was granted. -/
private theorem rows_of_run {used : UsedChallenges} (same : start.used = used)
    (taken : Run (step engine host rt) start past s) :
    ∀ row ∈ s.used, row ∈ used ∨ Happened (step engine host rt) (Consumes row.1) start past := by
  refine taken.history (fun past s => ∀ row ∈ s.used,
    row ∈ used ∨ Happened (step engine host rt) (Consumes row.1) start past)
    (fun row member => Or.inl (same ▸ member)) ?_
  intro past event s t before ih step
  have kept : ∀ row ∈ s.used, row ∈ used ∨
      Happened (Service.step engine host rt) (Consumes row.1) start (past ++ [event]) :=
    fun row member => (ih row member).imp_right fun happened =>
      (happened_snoc before event).mpr (Or.inl happened)
  -- a call leaves old rows, and its own when it is granted
  have called : ∀ (id : JsString) (expiresAt nowSeconds : Number),
      ((UncrackableL5.consume s.used id expiresAt nowSeconds).1 = .ok true →
        Consumes id s event) →
      ∀ row ∈ (UncrackableL5.consume s.used id expiresAt nowSeconds).2,
        row ∈ used ∨
          Happened (Service.step engine host rt) (Consumes row.1) start (past ++ [event]) := by
    intro id expiresAt nowSeconds grants row member
    rcases consume_rows s.used id expiresAt nowSeconds with ⟨granted, rows⟩ | ⟨-, rows | rows⟩ <;>
      rw [rows] at member
    · rcases List.mem_append.mp member with old | new
      · exact kept row (List.mem_filter.mp old).1
      · rw [List.mem_singleton.mp new]
        exact Or.inr ((happened_snoc before event).mpr (Or.inr (grants granted)))
    · exact kept row member
    · exact kept row (List.mem_filter.mp member).1
  cases stepped_of_step step with
  | ticked | refused | arrived | resumed => exact kept
  | consumed i a bytes id expiresAt nowSeconds running phase =>
    exact called id expiresAt nowSeconds fun granted =>
      Or.inl ⟨i, rfl, a, bytes, expiresAt, nowSeconds, running, phase, granted⟩
  | called id expiresAt nowSeconds second notAhead =>
    exact called id expiresAt nowSeconds fun granted =>
      Or.inr ⟨expiresAt, nowSeconds, rfl, granted⟩

/-- What a request that calls `consume` sends, and what it has behind it. -/
private theorem vouched_of_consuming {clock : ℚ} {used : UsedChallenges}
    (taken : Run (step engine host rt) (.initial clock used) past s) {a : Attempt} {bytes : Bytes}
    {id : JsString} {expiresAt : Number} {nowSeconds : Int} (running : s.attempts[i]? = some a)
    (phase : a.phase = .consuming bytes id expiresAt nowSeconds) :
    Vouched engine host rt (.initial clock used) past i a.request bytes ∧
      id = Challenges.id engine.sha256 bytes ∧ expiresAt = expiresAtSeconds bytes ∧
      IsSecond (issuedAt bytes) ∧ IsSecond nowSeconds ∧ (nowSeconds : ℚ) ≤ s.clock + skew := by
  have progress := taken.history
    (fun past s => ∀ (i : Nat) (a : Attempt), s.attempts[i]? = some a →
      a.Progress engine host rt (.initial clock used) past i)
    (fun i a found => by simp [initial] at found)
    (fun past event middle next before ih step => (stepped_of_step step).progress before ih)
    i a running
  have once := taken.invariant (Once engine bytes)
    (fun s event t once step => (stepped_of_step step).once once) (initial_once clock used bytes)
  have sound := once.sound a (List.mem_of_getElem? running)
  rw [Attempt.Progress, phase] at progress
  rw [Attempt.Sound, phase] at sound
  obtain ⟨carries, sameId, sameExpiry, second, notAhead⟩ := sound
  exact ⟨progress, sameId, sameExpiry, carries.second, second, notAhead⟩

/-- An event of a request purges at most, unless the object grants its call. -/
private theorem purges_or_grants {clock : ℚ} {used : UsedChallenges}
    (taken : Run (step engine host rt) (.initial clock used) past s)
    (step : s.step engine host rt event = some t)
    (own : ∀ id expiresAt nowSeconds, event ≠ .call id expiresAt nowSeconds) :
    s.OnlyPurges t ∨ ∃ i a bytes id expiresAt, ∃ nowSeconds : Int, event = .consume i ∧
      s.attempts[i]? = some a ∧ a.phase = .consuming bytes id expiresAt nowSeconds ∧
      (UncrackableL5.consume s.used id expiresAt nowSeconds).1 = .ok true ∧
      t.used = unexpiredRows s.used nowSeconds ++ [(id, expiresAt)] ∧
      t.attempts[i]? = some { a with phase := .consumed bytes (.ok true) } := by
  cases stepped_of_step step with
  | ticked | refused | arrived | resumed => exact Or.inl (Or.inl rfl)
  | called id expiresAt nowSeconds => exact absurd rfl (own id expiresAt nowSeconds)
  | consumed i a bytes id expiresAt nowSeconds running phase =>
    obtain ⟨-, -, -, -, second, notAhead⟩ := vouched_of_consuming taken running phase
    rcases consume_rows s.used id expiresAt nowSeconds with ⟨granted, rows⟩ | ⟨-, rows | rows⟩
    · refine Or.inr ⟨i, a, bytes, id, expiresAt, nowSeconds, rfl, running, phase, granted, rows, ?_⟩
      rw [← granted]
      exact lookup_setPhase running _
    · exact Or.inl (Or.inl rows)
    · exact Or.inl (Or.inr ⟨nowSeconds, second, notAhead, rows⟩)

/-- Nothing stands in the way of a call whose id was never granted. -/
private theorem grants_of_unused {clock : ℚ} {used : UsedChallenges} {bytes : Bytes}
    {nowSeconds : Number} (taken : Run (step engine host rt) (.initial clock used) past s)
    (octets : ∀ message, (engine.sha256 message).length = 32) (second : IsSecond (issuedAt bytes))
    (unused : ∀ row ∈ used, row.1 ≠ Challenges.id engine.sha256 bytes)
    (never : ¬Happened (step engine host rt) (Consumes (Challenges.id engine.sha256 bytes))
      (.initial clock used) past) :
    (UncrackableL5.consume s.used (Challenges.id engine.sha256 bytes) (expiresAtSeconds bytes)
      nowSeconds).1 = .ok true := by
  refine consume_fresh (isSha256Hex_hex (octets bytes)) ?_ fun row member same => ?_
  · rw [Challenges.expiresAtSeconds_eq bytes second]
    exact nofun
  · rcases rows_of_run rfl taken row member with old | happened
    · exact unused row old same
    · exact never (same ▸ happened)

end Service

/-! ### Runs -/

open Service in
/-- Refused requests do not use challenges up. In every run, from any rows:
a request that calls `consume` was vouched for, with the octets that it sends (also where the call
reaches the object after its request is gone, as a `call` event);
an event of a request only purges, unless the object grants the call of a request that was vouched
for and adds its row;
all events of a request that was refused only purge;
and as long as no call for its id was granted, a request that calls `consume` is granted and a
valid request receives the flag. -/
theorem refused_attempts_keep_challenge (engine : Engine) (host : Host CryptoKey) (rt : Runtime)
    (clock : ℚ) (used : UsedChallenges) (events : List ServiceEvent) (s : Service)
    (taken : Run (step engine host rt) (.initial clock used) events s)
    (octets : ∀ message, (engine.sha256 message).length = 32) :
    (∀ (i : Nat) (a : Attempt) bytes id expiresAt nowSeconds, s.attempts[i]? = some a →
      a.phase = .consuming bytes id expiresAt nowSeconds →
        Vouched engine host rt (.initial clock used) events i a.request bytes ∧
        id = Challenges.id engine.sha256 bytes ∧ expiresAt = expiresAtSeconds bytes) ∧
    (∀ event t, s.step engine host rt event = some t →
      (∀ id expiresAt nowSeconds, event ≠ .call id expiresAt nowSeconds) →
        s.OnlyPurges t ∨ ∃ i request bytes, ∃ nowSeconds : Int, event = .consume i ∧
          Vouched engine host rt (.initial clock used) events i request bytes ∧
          t.used = unexpiredRows s.used nowSeconds ++
            [(Challenges.id engine.sha256 bytes, expiresAtSeconds bytes)] ∧
          t.attempts[i]? = some { request := request, phase := .consumed bytes (.ok true) }) ∧
    (∀ i, Happened (step engine host rt) (Refuses engine host rt i) (.initial clock used) events →
      Throughout (step engine host rt)
        (fun middle event => event.request = some i →
          ∀ t, middle.step engine host rt event = some t → middle.OnlyPurges t)
        (.initial clock used) events) ∧
    (∀ (i : Nat) (a : Attempt) bytes id expiresAt nowSeconds, s.attempts[i]? = some a →
      a.phase = .consuming bytes id expiresAt nowSeconds → (∀ row ∈ used, row.1 ≠ id) →
      ¬Happened (step engine host rt) (Consumes id) (.initial clock used) events →
        (consume s.used id expiresAt nowSeconds).1 = .ok true) ∧
    (∀ i request nowSeconds view serials nowMs bytes,
      s.attempts[i]? = some { request := request, phase := .verifying nowSeconds } →
      s.Reads nowSeconds → rt.challenges.Accepts request.challenge nowSeconds bytes →
      view.serials = some serials → rt.verifier.verify host request bytes serials nowMs = .ok 2 →
      (∀ row ∈ used, row.1 ≠ Challenges.id engine.sha256 bytes) →
      ¬Happened (step engine host rt) (Consumes (Challenges.id engine.sha256 bytes))
        (.initial clock used) events →
        ∃ t, Run (step engine host rt) s (undisturbed i nowSeconds view nowMs) t ∧
          t.attempts[i]? = some { request := request, phase := .done (.flag 2 rt.flag) }) := by
  refine ⟨?_, ?_, ?_, ?_, ?_⟩
  · intro i a bytes id expiresAt nowSeconds running phase
    obtain ⟨vouched, sameId, sameExpiry, -⟩ := vouched_of_consuming taken running phase
    exact ⟨vouched, sameId, sameExpiry⟩
  · intro event t step own
    rcases purges_or_grants taken step own with
      purges | ⟨i, a, bytes, id, expiresAt, now, isCall, running, phase, -, rows, after⟩
    · exact Or.inl purges
    · obtain ⟨vouched, rfl, rfl, -⟩ := vouched_of_consuming taken running phase
      exact Or.inr ⟨i, a.request, bytes, now, isCall, vouched, rows, after⟩
  · intro i refused
    obtain ⟨-, never⟩ := ended_of_refused taken i refused
    apply taken.throughout
    intro before event after middle split reached own t step
    have isOwn : ∀ id expiresAt nowSeconds, event ≠ .call id expiresAt nowSeconds := by
      rintro id expiresAt nowSeconds rfl
      cases own
    rcases purges_or_grants reached step isOwn with
      purges | ⟨j, a, bytes, id, expiresAt, now, rfl, running, phase, granted, -⟩
    · exact purges
    · obtain rfl : j = i := Option.some.inj own
      exact absurd ⟨before, .consume j, after, middle, split, reached, rfl, a, bytes, expiresAt,
        now, running, phase, granted⟩ (never id)
  · intro i a bytes id expiresAt nowSeconds running phase unused never
    obtain ⟨-, rfl, rfl, second, -⟩ := vouched_of_consuming taken running phase
    exact grants_of_unused taken octets second unused never
  · intro i request nowSeconds view serials nowMs bytes running reads accepts fresh genuine unused
      never
    have second : IsSecond (issuedAt bytes) := by
      have positive := accepts.positive
      have started := accepts.started
      have reading := reads.1
      simp only [IsSecond] at reading ⊢
      omega
    have served := run_undisturbed s i request nowSeconds view serials nowMs bytes running reads
      accepts fresh genuine (grants_of_unused taken octets second unused never)
    exact ⟨_, served, List.getElem?_set_self (List.getElem?_eq_some_iff.mp running).1⟩

/-- Two requests with the same challenge arrive, and the first one finds the object unreachable. -/
def Sample.refusedRun : List ServiceEvent :=
  [.arrive (utf8Encode attestText) 1735689610, .arrive (utf8Encode attestText) 1735689610,
    .resume 0 (.value 1735689610), .resume 0 .thrown]

namespace Sample

private theorem attestEngine_octets (message : Bytes) :
    (attestEngine.sha256 message).length = 32 := by
  simp only [attestEngine]
  split
  · decide +kernel
  · decide +kernel

/-- The first request is over, and the second one waits for its answer. -/
private def refused : Service :=
  (waiting 2).setPhase 0
    { request := request, phase := .lookingUp challenge 1735689610 }
    (.done (.error 503 "verification_unavailable"))

private theorem refusedRun_taken :
    Run (Service.step attestEngine host runtime) (.initial 1735689610 []) refusedRun refused := by
  have checks : (waiting 2).step attestEngine host runtime (.resume 0 (.value 1735689610)) =
      some ((waiting 2).setPhase 0 { request := request, phase := .verifying 1735689610 }
        (.lookingUp challenge 1735689610)) := by
    have admitted : (waiting 2).admits (.value 1735689610) = true :=
      decide_eq_true (waiting_reads 2)
    have resumed : Attempt.resume attestEngine host runtime
        { request := request, phase := .verifying 1735689610 } (.value 1735689610) =
          some (.lookingUp challenge 1735689610) := by
      simp only [Attempt.resume, runtime, challenge_verified]
    have first : (waiting 2).attempts[0]? =
        some { request := request, phase := .verifying 1735689610 } := rfl
    simp only [Service.step, first, admitted, resumed, ↓reduceIte, Option.map_some]
  refine (run_cons _ _ _ _).mpr ⟨_, waiting_arrive 0, ?_⟩
  refine (run_cons _ _ _ _).mpr ⟨_, waiting_arrive 1, ?_⟩
  refine (run_cons _ _ _ _).mpr ⟨_, checks, ?_⟩
  exact (run_cons _ _ _ _).mpr ⟨refused, rfl, (run_nil _ _).mpr rfl⟩

private theorem refusedRun_consumes_nothing (id : JsString) :
    ¬Happened (Service.step attestEngine host runtime) (Service.Consumes id)
      (.initial 1735689610 []) refusedRun := by
  rintro ⟨before, event, after, middle, split, -, consumes⟩
  have member : event ∈ refusedRun := split ▸ by simp
  simp only [refusedRun, List.mem_cons, List.not_mem_nil, or_false] at member
  rcases consumes with ⟨i, rfl, -⟩ | ⟨expiresAt, nowSeconds, rfl, -⟩ <;> simp at member

end Sample

theorem refused_attempts_keep_challenge_sample :
    ∃ s t, Run (Service.step Sample.attestEngine Sample.host Sample.runtime)
        (.initial 1735689610 []) Sample.refusedRun s ∧
      s.attempts[0]? = some { request := Sample.request,
                              phase := .done (.error 503 "verification_unavailable") } ∧
      Run (Service.step Sample.attestEngine Sample.host Sample.runtime) s
        (Service.undisturbed 1 1735689610
          { serials := some [], expiresAt := .finite 1735689900 } Sample.nowMs) t ∧
      t.attempts[1]? = some { request := Sample.request, phase := .done (.flag 2 (js "flag")) } := by
  obtain ⟨-, -, -, -, later⟩ := refused_attempts_keep_challenge Sample.attestEngine Sample.host
    Sample.runtime 1735689610 [] Sample.refusedRun Sample.refused Sample.refusedRun_taken
    Sample.attestEngine_octets
  obtain ⟨t, served, flag⟩ := later 1 Sample.request 1735689610
    { serials := some [], expiresAt := .finite 1735689900 } [] Sample.nowMs Sample.challenge rfl
    (Sample.waiting_reads 2) Sample.challenge_accepted rfl sample_accepted (by simp)
    (Sample.refusedRun_consumes_nothing _)
  exact ⟨Sample.refused, t, Sample.refusedRun_taken, rfl, served, flag⟩

end UncrackableL5
