import UncrackableL5.Library.Transition
import UncrackableL5.Properties.AppAttempts

/-!
# Runs of the app

The activity runs one attempt at a time, whatever order the main thread and the thread of the
executor take. What its attempts do to the phone adds up over a run.

## Main results

- `attempts_confined`: what is left of all attempts of a run.
- `status_truthful`: the button and the status text in every run.
-/
namespace UncrackableL5

open Transition
open MainActivity (Seals)

variable {Key AttestKey : Type}

/-! ### What is left of attempts -/

/-- A request of one of these attempts was answered with the flag. -/
def Given (codec : WireCodec) (attempts : List (AttemptConditions Key AttestKey))
    (sent : List JavaString) (c : AttemptConditions Key AttestKey) (flag : Bytes) : Prop :=
  c ∈ attempts ∧ ∃ body ∈ sent, Requests codec c body ∧ Answers codec c body (.accepted 2 flag)

/-- What these attempts may have made of the phone. -/
structure Phone.Confined (gcm : Gcm Key) (codec : WireCodec) (p : Phone Key AttestKey)
    (attempts : List (AttemptConditions Key AttestKey)) (t : Phone Key AttestKey) : Prop where
  keys : ∀ keyAlias, t.keystore keyAlias = p.keystore keyAlias ∨ ∃ c ∈ attempts,
    keyAlias = Attestation.aliasOf c.proof ∧ (c.proof.delete = .ok () → t.keystore keyAlias = none)
  sent : ∃ senders bodies, senders.Sublist attempts ∧
    List.Forall₂ (Requests codec) senders bodies ∧ t.sent = p.sent ++ bodies
  zeroed : (∀ octet ∈ p.device.flag, octet = 0) → ∀ octet ∈ t.device.flag, octet = 0
  first : t.device.files (.record 1) = p.device.files (.record 1) ∨
    t.device.files (.record 1) = none
  second : t.device.files (.record 2) = p.device.files (.record 2) ∨
    t.device.files (.record 2) = none ∨
    ∃ c flag record, Given codec attempts t.sent c flag ∧ Seals gcm c.store flag record ∧
      t.device.files (.record 2) = some record.encode
  uses : ∀ use ∈ t.device.uses, use ∈ p.device.uses ∨ ∃ c flag key,
    Given codec attempts t.sent c flag ∧ c.store.Passes key ∧
      use = Use.ofFlag gcm c.store 2 flag key

section Confined

variable {gcm : Gcm Key} {codec : WireCodec} {p s t : Phone Key AttestKey}
  {attempts : List (AttemptConditions Key AttestKey)}

private theorem Given.later {sent more : List JavaString} {c last : AttemptConditions Key AttestKey}
    {flag : Bytes} (given : Given codec attempts sent c flag) (kept : ∀ body ∈ sent, body ∈ more) :
    Given codec (attempts ++ [last]) more c flag := by
  obtain ⟨member, body, posted, requests, answers⟩ := given
  exact ⟨List.mem_append_left _ member, body, kept body posted, requests, answers⟩

theorem Phone.Confined.start (gcm : Gcm Key) (codec : WireCodec) (p : Phone Key AttestKey) :
    p.Confined gcm codec [] p where
  keys := fun _ => .inl rfl
  sent := ⟨[], [], List.Sublist.refl _, .nil, (List.append_nil _).symm⟩
  zeroed := fun zero => zero
  first := .inl rfl
  second := .inl rfl
  uses := fun _ member => .inl member

/-- One more attempt. -/
theorem Phone.Confined.attempt (confined : p.Confined gcm codec attempts s)
    (c : AttemptConditions Key AttestKey) :
    p.Confined gcm codec (attempts ++ [c]) (MainActivity.task gcm codec c s).2 := by
  obtain ⟨tidy, sends, device⟩ := MainActivity.task_phone gcm codec c s
  generalize (MainActivity.task gcm codec c s).2 = t at tidy sends device
  have kept : ∀ body ∈ s.sent, body ∈ t.sent := by
    intro body member
    rcases sends with same | ⟨last, -, more⟩
    · exact same ▸ member
    · exact more ▸ List.mem_append_left _ member
  have new : c ∈ attempts ++ [c] := List.mem_append_right _ (List.mem_singleton_self c)
  have given : ∀ flag, MainActivity.Flagged codec c s t flag →
      Given codec (attempts ++ [c]) t.sent c flag := by
    rintro flag ⟨body, requests, more, answers⟩
    exact ⟨new, body, more ▸ List.mem_append_right _ (List.mem_singleton_self body), requests,
      answers⟩
  refine ⟨fun keyAlias => ?_, ?_, fun zero => ?_, ?_, ?_, fun use member => ?_⟩
  · -- An entry under another alias is as it was before this attempt.
    have before : t.keystore keyAlias = s.keystore keyAlias ∨
        keyAlias = Attestation.aliasOf c.proof ∧
          (c.proof.delete = .ok () → t.keystore keyAlias = none) := by
      rcases tidy with same | ⟨others, disposed⟩
      · exact .inl (congrFun same keyAlias)
      · by_cases own : keyAlias = Attestation.aliasOf c.proof
        · exact .inr ⟨own, own ▸ disposed⟩
        · exact .inl (others keyAlias own)
    rcases before with same | disposed
    · rw [same]
      rcases confined.keys keyAlias with old | ⟨earlier, member, own, gone⟩
      · exact .inl old
      · exact .inr ⟨earlier, List.mem_append_left _ member, own, gone⟩
    · exact .inr ⟨c, new, disposed⟩
  · obtain ⟨senders, bodies, sublist, each, sent⟩ := confined.sent
    rcases sends with same | ⟨body, requests, more⟩
    · exact ⟨senders, bodies, sublist.trans (List.sublist_append_left _ _), each,
        same.trans sent⟩
    · refine ⟨senders ++ [c], bodies ++ [body], sublist.append (List.Sublist.refl _),
        List.rel_append each (.cons requests .nil), ?_⟩
      rw [more, sent, List.append_assoc]
  · rcases device with same | ⟨flag, offered⟩
    · exact same ▸ confined.zeroed zero
    · rw [offered.device.1]
      intro octet member
      exact (List.mem_replicate.mp member).2
  · rcases device with same | ⟨flag, offered⟩
    · exact same ▸ confined.first
    · rcases offered.device.2.1 with same | gone
      · exact same ▸ confined.first
      · exact .inr gone
  · have old : t.device.files (.record 2) = s.device.files (.record 2) →
        t.device.files (.record 2) = p.device.files (.record 2) ∨
        t.device.files (.record 2) = none ∨
        ∃ c' flag record, Given codec (attempts ++ [c]) t.sent c' flag ∧
          Seals gcm c'.store flag record ∧ t.device.files (.record 2) = some record.encode := by
      intro same
      rw [same]
      rcases confined.second with first | gone | ⟨c', flag, record, earlier, stored⟩
      · exact .inl first
      · exact .inr (.inl gone)
      · exact .inr (.inr ⟨c', flag, record, earlier.later kept, stored⟩)
    rcases device with same | ⟨flag, offered⟩
    · exact old (congrArg (Device.files · (.record 2)) same)
    · rcases offered.device.2.2.1 with same | gone | ⟨record, stored⟩
      · exact old same
      · exact .inr (.inl gone)
      · exact .inr (.inr ⟨c, flag, record, given flag offered.1, stored⟩)
  · have old : use ∈ s.device.uses → use ∈ p.device.uses ∨ ∃ c' flag key,
        Given codec (attempts ++ [c]) t.sent c' flag ∧ c'.store.Passes key ∧
          use = Use.ofFlag gcm c'.store 2 flag key := by
      intro member
      rcases confined.uses use member with first | ⟨c', flag, key, earlier, made⟩
      · exact .inl first
      · exact .inr ⟨c', flag, key, earlier.later kept, made⟩
    rcases device with same | ⟨flag, offered⟩
    · exact old (same ▸ member)
    · rcases offered.device.2.2.2 with same | ⟨key, made, passes, rfl, uses⟩
      · exact old (same ▸ member)
      · rcases List.mem_append.mp (uses ▸ member) with before | last
        · exact old before
        · exact .inr ⟨c, flag, key, given flag offered.1, passes, List.mem_singleton.mp last⟩

end Confined

namespace Screen

variable {gcm : Gcm Key} {codec : WireCodec} {s t : Screen Key AttestKey}

/-- The attempts that were finished, in their order. -/
def finished (events : List (ScreenEvent Key AttestKey)) :
    List (AttemptConditions Key AttestKey) :=
  events.filterMap fun
    | .finish c => some c
    | _ => none

@[simp] theorem finished_snoc (events : List (ScreenEvent Key AttestKey))
    (event : ScreenEvent Key AttestKey) :
    finished (events ++ [event]) = finished events ++ finished [event] := by
  simp [finished]

/-- Only the end of an attempt changes the phone. -/
theorem step_phone {event : ScreenEvent Key AttestKey} (step : s.step gcm codec event = some t) :
    finished [event] = [] ∧ t.phone = s.phone ∨
      ∃ c, finished [event] = [c] ∧ t.phone = (MainActivity.task gcm codec c s.phone).2 := by
  cases event with
  | finish c =>
    refine .inr ⟨c, rfl, ?_⟩
    simp only [Screen.step] at step
    split at step
    next =>
      split at step
      next result phone ran =>
        cases step
        rw [ran]
      next phone ran =>
        split at step
        · cases step
          rw [ran]
        · cases step
    next => cases step
  | post =>
    refine .inl ⟨rfl, ?_⟩
    simp only [Screen.step] at step
    split at step
    next => cases step
    next => split_ifs at step <;> cases step <;> rfl
  | click | start | destroy =>
    refine .inl ⟨rfl, ?_⟩
    simp only [Screen.step] at step
    split_ifs at step
    cases step
    rfl

end Screen

/-- Whatever order the threads take: a run leaves on the phone what its attempts account for. An
entry of the Keystore differs only under the alias of an attempt, which has deleted it if that
worked. Requests are sent by different attempts, in their order, each with a proof made for the
challenge that its attempt was issued. The Keystore encrypts nothing but flags that these requests
were answered with; the record of tier 2 is the old one or that of such a flag; the record of tier 1
never becomes a new one; no flag stays in the array. -/
theorem attempts_confined (gcm : Gcm Key) (codec : WireCodec) (p : Phone Key AttestKey)
    (events : List (ScreenEvent Key AttestKey)) (s : Screen Key AttestKey)
    (taken : Run (Screen.step gcm codec) (.initial p) events s) :
    p.Confined gcm codec (Screen.finished events) s.phone := by
  refine taken.history (fun past s => p.Confined gcm codec (Screen.finished past) s.phone)
    (Phone.Confined.start gcm codec p) ?_
  intro past event middle next _ confined step
  rw [Screen.finished_snoc]
  rcases Screen.step_phone step with ⟨none, same⟩ | ⟨c, one, phone⟩
  · rw [none, List.append_nil, same]
    exact confined
  · rw [one, phone]
    exact confined.attempt c

namespace Sample

/-- A challenge of zeros. -/
def zeroChallenge : JavaString := JavaBase64.urlEncode (1 :: List.replicate 56 0)

def challengeBody : JavaString := js "\x7b\"challenge\":\"" ++ zeroChallenge ++ js "\"\x7d"

-- JSON of texts without escapes
def wireCodec : WireCodec where
  toDecoders := decoders
  challengeResponse text := if text = challengeBody then some zeroChallenge else none
  attestRequest challenge chain pop :=
    js "\x7b\"challenge\":\"" ++ challenge ++ js "\",\"chain\":[\"" ++
      List.intercalate (js "\",\"") chain ++ js "\"],\"pop\":\"" ++ pop ++ js "\"\x7d"

def proofConditions : ProofConditions Nat where
  hasStrongBox := true
  load := .ok ()
  random := List.replicate 12 0
  currentTimeMillis _ := 1790000000000
  generateKeyPair _ := .ok 0
  getCertificateChain _ := .ok (some [.ok [0x30, 0x00]])
  getKey _ := .ok true
  sign _ _ := .ok [0x30, 0x00]
  deleteFailed := .ok ()
  delete := .ok ()

def attemptConditions : AttemptConditions Nat Nat where
  proof := proofConditions
  store := conditions
  challenge := .ok { code := 200, body := .ok (some (encodeToByteArray challengeBody)) }
  attest _ := .ok { code := 200, body := .ok (some (encodeToByteArray (flagBody (js "flag")))) }

def phone : Phone Nat Nat where
  keystore _ := none
  device := device
  sent := []

def attemptEvents : List (ScreenEvent Nat Nat) :=
  [.click, .start, .finish attemptConditions, .post]

/-- What the activity shows and the phone holds in the end. -/
def shown (s : Screen Nat Nat) : Bool × Bool × StatusText × Option Bytes :=
  (s.destroyed, s.enabled, s.status, s.phone.device.files (.record 2))

theorem attempt_runs : ∃ s, Run (Screen.step gcm wireCodec) (.initial phone) attemptEvents s ∧
    shown s = (false, true, .tier2, some (1 :: 2 :: 12 :: (flagIv ++ sealedFlag))) := by
  have ran : (run (Screen.step gcm wireCodec) (.initial phone) attemptEvents).map shown =
      some (false, true, .tier2, some (1 :: 2 :: 12 :: (flagIv ++ sealedFlag))) := by
    decide +kernel
  exact Option.map_eq_some_iff.mp ran

end Sample

/-- The flag is stored in the first attempt. -/
theorem attempts_confined_sample : ∃ s : Screen Nat Nat,
    Run (Screen.step Sample.gcm Sample.wireCodec) (.initial Sample.phone) Sample.attemptEvents s ∧
      Sample.phone.Confined Sample.gcm Sample.wireCodec [Sample.attemptConditions] s.phone ∧
      s.phone.device.files (.record 2) =
        some (1 :: 2 :: 12 :: (Sample.flagIv ++ Sample.sealedFlag)) := by
  obtain ⟨s, taken, shown⟩ := Sample.attempt_runs
  exact ⟨s, taken, attempts_confined Sample.gcm Sample.wireCodec Sample.phone Sample.attemptEvents s
    taken, congrArg (·.2.2.2) shown⟩

/-! ### The screen -/

namespace Screen

/-- The tasks and results on their way. -/
def pending (s : Screen Key AttestKey) : Nat :=
  s.queued + (if s.running then 1 else 0) + s.posted.length

/-- This is the result of the attempt that was finished last. -/
def Latest (gcm : Gcm Key) (codec : WireCodec) (p : Phone Key AttestKey)
    (events : List (ScreenEvent Key AttestKey)) (result : StatusText) : Prop :=
  ∃ before c after m, events = before ++ .finish c :: after ∧ finished after = [] ∧
    Run (Screen.step gcm codec) (.initial p) before m ∧
    (MainActivity.task gcm codec c m.phone).1 = some result

/-- What holds of the screen after these events. -/
structure Truthful (gcm : Gcm Key) (codec : WireCodec) (p : Phone Key AttestKey)
    (events : List (ScreenEvent Key AttestKey)) (s : Screen Key AttestKey) : Prop where
  one : s.pending ≤ 1
  button : s.destroyed = false → (s.enabled = true ↔ s.pending = 0)
  inFlight : s.destroyed = false → s.enabled = false → s.status = .inFlight
  shown : s.destroyed = false → s.enabled = true →
    s.status = .idle ∧ finished events = [] ∨ Latest gcm codec p events s.status
  posted : s.destroyed = false → ∀ result ∈ s.posted, Latest gcm codec p events result

variable {p : Phone Key AttestKey} {past : List (ScreenEvent Key AttestKey)}

/-- The latest result stays the latest until another attempt is finished. -/
private theorem Latest.later {result : StatusText} {event : ScreenEvent Key AttestKey}
    (latest : Latest gcm codec p past result) (other : finished [event] = []) :
    Latest gcm codec p (past ++ [event]) result := by
  obtain ⟨before, c, after, m, split, none, ran, shown⟩ := latest
  refine ⟨before, c, after ++ [event], m, ?_, ?_, ran, shown⟩
  · rw [split, List.append_assoc, List.cons_append]
  · rw [finished_snoc, none, other, List.append_nil]

theorem Truthful.start (gcm : Gcm Key) (codec : WireCodec) (p : Phone Key AttestKey) :
    Truthful gcm codec p [] (.initial p) where
  one := by simp [pending, Screen.initial]
  button := by simp [pending, Screen.initial]
  inFlight := by simp [Screen.initial]
  shown := fun _ _ => .inl ⟨rfl, rfl⟩
  posted := by simp [Screen.initial]

theorem Truthful.step {event : ScreenEvent Key AttestKey} (truthful : Truthful gcm codec p past s)
    (ran : Run (Screen.step gcm codec) (.initial p) past s)
    (step : s.step gcm codec event = some t) :
    Truthful gcm codec p (past ++ [event]) t := by
  obtain ⟨one, button, inFlight, shown, posted⟩ := truthful
  cases event with
  | click =>
    simp only [Screen.step] at step
    split at step
    next allowed =>
      cases step
      obtain ⟨enabled, alive⟩ := allowed
      have none : s.pending = 0 := (button (by simpa using alive)).mp enabled
      simp only [pending] at none
      refine ⟨by simp only [pending]; omega, ?_, fun _ _ => rfl, ?_, ?_⟩
      · simp only [pending, Bool.false_eq_true, false_iff]
        omega
      · intro _ enabled
        cases enabled
      · intro alive result member
        exact (posted alive result member).later rfl
    next => cases step
  | start =>
    simp only [Screen.step] at step
    split at step
    next allowed =>
      cases step
      obtain ⟨waiting, idle⟩ := allowed
      have same : pending { s with queued := s.queued - 1, running := true } = s.pending := by
        simp only [pending, if_true, if_neg idle]
        omega
      refine ⟨by rwa [same], by rwa [same], inFlight, ?_, ?_⟩
      · intro alive enabled
        refine (shown alive enabled).imp ?_ (·.later rfl)
        rintro ⟨status, none⟩
        exact ⟨status, by rw [finished_snoc, none]; rfl⟩
      · intro alive result member
        exact (posted alive result member).later rfl
    next => cases step
  | finish c =>
    simp only [Screen.step] at step
    split at step
    next running =>
      simp only [pending, running, if_true] at one
      split at step
      next result phone finished =>
        cases step
        have empty : s.posted = [] := List.eq_nil_of_length_eq_zero (by omega)
        have latest : Latest gcm codec p (past ++ [.finish c]) result :=
          ⟨past, c, [], s, rfl, rfl, ran, by rw [finished]⟩
        have busy : s.pending ≠ 0 := by
          simp only [pending, running, if_true]
          omega
        have off : s.destroyed = false → s.enabled = false := by
          intro alive
          rw [← Bool.not_eq_true, button alive]
          exact busy
        refine ⟨?_, ?_, inFlight, ?_, ?_⟩
        · simp only [pending, Bool.false_eq_true, if_false, List.length_append,
            List.length_singleton]
          omega
        · intro alive
          simp [pending, off alive]
        · intro alive enabled
          simp [off alive] at enabled
        · intro alive other member
          rw [empty] at member
          rw [List.mem_singleton.mp member]
          exact latest
      next phone finished =>
        split at step
        next destroyed =>
          cases step
          refine ⟨?_, ?_, ?_, ?_, ?_⟩
          · simp only [pending, Bool.false_eq_true, if_false]
            omega
          all_goals
            intro alive
            simp [destroyed] at alive
        next => cases step
    next => cases step
  | post =>
    simp only [Screen.step] at step
    split at step
    next => cases step
    next result rest queue =>
      simp only [pending, queue, List.length_cons] at one
      split at step
      next destroyed =>
        cases step
        refine ⟨by simp only [pending]; omega, ?_, ?_, ?_, ?_⟩
        all_goals
          intro alive
          simp [destroyed] at alive
      next alive =>
        cases step
        have latest := posted (by simpa using alive) result (by simp [queue])
        refine ⟨by simp only [pending]; omega, ?_, ?_, ?_, ?_⟩
        · intro _
          simp only [pending, true_iff]
          omega
        · intro _ enabled
          cases enabled
        · intro _ _
          exact .inr (latest.later rfl)
        · intro alive other member
          exact (posted alive other (by simp [queue, member])).later rfl
  | destroy =>
    simp only [Screen.step] at step
    split at step
    next => cases step
    next =>
      cases step
      simp only [pending] at one
      refine ⟨by simp only [pending]; omega, ?_, ?_, ?_, ?_⟩
      all_goals
        intro alive
        cases alive

end Screen

/-- In every run, whatever order the threads take: at most one attempt is on its way. While the
activity lives, its button is enabled exactly if none is, and says that one is if it is not.
An enabled button shows the result of the attempt that was finished last; that is the text of
success exactly if this attempt has stored the flag that its request was answered with. -/
theorem status_truthful (gcm : Gcm Key) (codec : WireCodec) (p : Phone Key AttestKey)
    (events : List (ScreenEvent Key AttestKey)) (s : Screen Key AttestKey)
    (taken : Run (Screen.step gcm codec) (.initial p) events s) :
    s.pending ≤ 1 ∧ (s.destroyed = false →
      (s.enabled = true ↔ s.pending = 0) ∧ (s.enabled = false → s.status = .inFlight) ∧
      (s.enabled = true → s.status = .idle ∧ Screen.finished events = [] ∨
        ∃ before c after m, events = before ++ .finish c :: after ∧ Screen.finished after = [] ∧
          Run (Screen.step gcm codec) (.initial p) before m ∧
          (MainActivity.task gcm codec c m.phone).1 = some s.status ∧
          (s.status = .tier2 ↔ ∃ flag,
            MainActivity.Flagged codec c m.phone (MainActivity.task gcm codec c m.phone).2 flag ∧
            MainActivity.Stored gcm c.store flag m.phone.device
              (MainActivity.task gcm codec c m.phone).2.device))) := by
  have truthful : Screen.Truthful gcm codec p events s :=
    taken.history (Screen.Truthful gcm codec p) (Screen.Truthful.start gcm codec p)
      fun _ _ _ _ ran truthful step => truthful.step ran step
  refine ⟨truthful.one, fun alive => ⟨truthful.button alive, truthful.inFlight alive, ?_⟩⟩
  intro enabled
  rcases truthful.shown alive enabled with idle | ⟨before, c, after, m, split, none, ran, shown⟩
  · exact .inl idle
  · refine .inr ⟨before, c, after, m, split, none, ran, shown, ?_⟩
    rw [← MainActivity.task_eq_tier2_iff, shown, Option.some.injEq]

/-- The text of success is that of the one attempt, and its flag is stored. -/
theorem status_truthful_sample : ∃ s : Screen Nat Nat,
    Run (Screen.step Sample.gcm Sample.wireCodec) (.initial Sample.phone) Sample.attemptEvents s ∧
      s.status = .tier2 ∧
      ∃ before c after m flag, Sample.attemptEvents = before ++ .finish c :: after ∧
        Screen.finished after = [] ∧
        Run (Screen.step Sample.gcm Sample.wireCodec) (.initial Sample.phone) before m ∧
        (MainActivity.task Sample.gcm Sample.wireCodec c m.phone).1 = some s.status ∧
        MainActivity.Flagged Sample.wireCodec c m.phone
          (MainActivity.task Sample.gcm Sample.wireCodec c m.phone).2 flag ∧
        MainActivity.Stored Sample.gcm c.store flag m.phone.device
          (MainActivity.task Sample.gcm Sample.wireCodec c m.phone).2.device := by
  obtain ⟨s, taken, shown⟩ := Sample.attempt_runs
  have alive : s.destroyed = false := congrArg (·.1) shown
  have enabled : s.enabled = true := congrArg (·.2.1) shown
  have success : s.status = .tier2 := congrArg (·.2.2.1) shown
  obtain ⟨idle, -⟩ | ⟨before, c, after, m, split, last, ran, result, stored⟩ :=
    ((status_truthful Sample.gcm Sample.wireCodec Sample.phone Sample.attemptEvents s taken).2
      alive).2.2 enabled
  · rw [success] at idle
    cases idle
  · obtain ⟨flag, flagged, stored⟩ := stored.mp success
    exact ⟨s, taken, success, before, c, after, m, flag, split, last, ran, result, flagged, stored⟩

end UncrackableL5
