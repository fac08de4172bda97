import UncrackableL5.Android.MainActivity
import UncrackableL5.Properties.AttestationKeys
import UncrackableL5.Properties.FailedStore
import UncrackableL5.Properties.FlagReadBack

/-!
# What attempts leave on the phone

An attempt touches the entry of its own key, the files of the flag store, and the array of the
flag. It sends one request at most, for a challenge that it was issued.

## Main results

- `MainActivity.attempt_spec`: what one attempt changes, sends and returns.
- `MainActivity.task_eq_tier2_iff`: an attempt reports success exactly if it has stored the flag.
-/
namespace UncrackableL5

open Std.Do
open FlagRecord (aadOf currentVersion)

set_option mvcgen.warning false

variable {Key AttestKey : Type}

/-! ### One attempt -/

/-- The body is that of a request for a challenge that this attempt was issued, with a proof of a
key that was generated for it. -/
def Requests (codec : WireCodec) (c : AttemptConditions Key AttestKey) (body : JavaString) :
    Prop :=
  ∃ issued bytes pair proof, Backend.challenge codec c.challenge = .ok (some issued) ∧
    Challenge.decode issued = .ok bytes ∧ Attestation.Generated c.proof pair bytes ∧
    Attestation.Exports c.proof pair bytes proof ∧
    body = codec.attestRequest issued proof.chain proof.pop

/-- The response to this body comes to this outcome. -/
def Answers (codec : WireCodec) (c : AttemptConditions Key AttestKey) (body : JavaString)
    (outcome : AttestOutcome) : Prop :=
  ∃ response read, c.attest body = .ok response ∧ response.body = .ok read ∧
    Backend.attestResponse codec.toDecoders response.code read = .ok outcome

namespace Phone

/-- At most one request was sent, and that of this attempt. -/
def SendsOne (codec : WireCodec) (c : AttemptConditions Key AttestKey)
    (s t : Phone Key AttestKey) : Prop :=
  t.sent = s.sent ∨ ∃ body, Requests codec c body ∧ t.sent = s.sent ++ [body]

/-- The attempt has not come to its key, or has disposed of it. -/
def Tidy (c : AttemptConditions Key AttestKey) (s t : Phone Key AttestKey) : Prop :=
  t.keystore = s.keystore ∨ Attestation.Disposed c.proof s.keystore t.keystore

end Phone

namespace Backend

@[spec] theorem prove_spec (c : ProofConditions AttestKey) (challengeBytes : Bytes)
    (s : Phone Key AttestKey) :
    ⦃fun now => ⌜now = s⌝⦄ prove c challengeBytes
    ⦃post⟨fun proof t => ⌜t.device = s.device ∧ t.sent = s.sent ∧
        Attestation.Disposed c s.keystore t.keystore ∧
          ∃ pair, Attestation.Generated c pair challengeBytes ∧
            Attestation.Exports c pair challengeBytes proof⌝,
      fun _ t => ⌜t.device = s.device ∧ t.sent = s.sent ∧
        (t.keystore = s.keystore ∨ Attestation.Disposed c s.keystore t.keystore)⌝⟩⦄ := by
  apply Effects.of_outcome
  have result := Effects.outcome (Attestation.prove_spec c challengeBytes s.keystore)
  rw [prove]
  cases ran : Attestation.prove c challengeBytes s.keystore with
  | ok proof keystore =>
    rw [ran] at result
    exact ⟨rfl, rfl, result⟩
  | error e keystore =>
    rw [ran] at result
    exact ⟨rfl, rfl, result⟩

theorem protocol_eq_ok {α : Type} {answer : Except ProtocolException α} {a : α}
    (answered : protocol answer = .ok a) : answer = .ok a := by
  cases answer with
  | error => cases answered
  | ok b =>
    cases answered
    rfl

@[spec] theorem submit_spec (codec : WireCodec) (c : AttemptConditions Key AttestKey)
    (issued : JavaString) (proof : AttestationProof) (s : Phone Key AttestKey) :
    ⦃fun now => ⌜now = s⌝⦄ submit codec c issued proof
    ⦃post⟨fun outcome t =>
        ⌜t = { s with sent := s.sent ++ [codec.attestRequest issued proof.chain proof.pop] } ∧
          Answers codec c (codec.attestRequest issued proof.chain proof.pop) outcome⌝,
      fun _ t =>
        ⌜t = { s with sent := s.sent ++ [codec.attestRequest issued proof.chain proof.pop] }⌝⟩⦄ := by
  mvcgen [submit] with (simp_all +zetaDelta)
  all_goals grind [Answers, protocol_eq_ok]

/-- A round trip leaves the device alone, and ends with the answer to its one request, or without
having sent one. -/
@[spec] theorem attest_spec (codec : WireCodec) (c : AttemptConditions Key AttestKey)
    (s : Phone Key AttestKey) :
    ⦃fun now => ⌜now = s⌝⦄ attest codec c
    ⦃post⟨fun outcome t => ⌜t.device = s.device ∧ s.Tidy c t ∧
        (outcome = .unavailable ∧ t.sent = s.sent ∨
          ∃ body, Requests codec c body ∧ t.sent = s.sent ++ [body] ∧ Answers codec c body outcome)⌝,
      fun _ t => ⌜t.device = s.device ∧ s.Tidy c t ∧ s.SendsOne codec c t⌝⟩⦄ := by
  mvcgen [attest]
  all_goals grind [Phone.Tidy, Phone.SendsOne, Requests]

end Backend

namespace MainActivity

/-- What a `store` call of the app leaves of the device: the caller's array is zero. -/
def Stored (gcm : Gcm Key) (c : Conditions Key) (flag : Bytes) (d t : Device Key) : Prop :=
  ∃ u, FlagStore.store gcm c 2 flag d = .ok () u ∧
    t = { u with flag := List.replicate flag.length 0 }

/-- The device after a `store` call of the app that failed. -/
def StoreFailed (gcm : Gcm Key) (c : Conditions Key) (flag : Bytes) (d t : Device Key) : Prop :=
  ∃ e u, FlagStore.store gcm c 2 flag d = .error e u ∧
    t = { u with flag := List.replicate flag.length 0 }

@[spec] theorem storeFlag_spec (gcm : Gcm Key) (c : Conditions Key) (tier : Int) (flag : Bytes)
    (s : Phone Key AttestKey) :
    ⦃fun now => ⌜now = s⌝⦄ storeFlag gcm c tier flag
    ⦃post⟨fun _ t => ⌜t.keystore = s.keystore ∧ t.sent = s.sent ∧
        (tier = 2 → Stored gcm c flag s.device t.device)⌝,
      fun e t => ⌜t.keystore = s.keystore ∧ t.sent = s.sent ∧ e = .new .flagStorage ∧
        (tier = 2 → StoreFailed gcm c flag s.device t.device)⌝⟩⦄ := by
  apply Effects.of_outcome
  rw [storeFlag]
  cases ran : FlagStore.store gcm c tier flag s.device with
  | ok _ d =>
    refine ⟨rfl, rfl, ?_⟩
    rintro rfl
    exact ⟨d, ran, rfl⟩
  | error e d =>
    refine ⟨rfl, rfl, rfl, ?_⟩
    rintro rfl
    exact ⟨e, d, ran, rfl⟩

/-- The attempt sent this request, and it was answered with this flag. -/
def Flagged (codec : WireCodec) (c : AttemptConditions Key AttestKey) (s t : Phone Key AttestKey)
    (flag : Bytes) : Prop :=
  ∃ body, Requests codec c body ∧ t.sent = s.sent ++ [body] ∧
    Answers codec c body (.accepted 2 flag)

private theorem accepted_two {codec : WireCodec} {c : AttemptConditions Key AttestKey}
    {body : JavaString} {tier : Int} {flag : Bytes}
    (answers : Answers codec c body (.accepted tier flag)) : tier = 2 := by
  obtain ⟨response, read, -, -, answered⟩ := answers
  exact Backend.accepted_tier answered

/-- Only an accepted flag of tier 2 is a success. -/
private theorem forOutcome_eq_tier2_iff (outcome : AttestOutcome) :
    Status.forOutcome outcome = .tier2 ↔ ∃ flag, outcome = .accepted 2 flag := by
  cases outcome with
  | accepted tier flag =>
    rw [Status.forOutcome]
    split
    next two => simp [two]
    next other => simp [other]
  | rejected code =>
    simp only [Status.forOutcome, reduceCtorEq, exists_false, iff_false]
    split_ifs <;> simp
  | unavailable => simp [Status.forOutcome]

/-- An attempt stores a flag that its request was answered with, or leaves the device alone. It
returns the text of success exactly when it has stored one. -/
@[spec] theorem attempt_spec (gcm : Gcm Key) (codec : WireCodec)
    (c : AttemptConditions Key AttestKey) (s : Phone Key AttestKey) :
    ⦃fun now => ⌜now = s⌝⦄ attempt gcm codec c
    ⦃post⟨fun status t => ⌜s.Tidy c t ∧ s.SendsOne codec c t ∧
        (status = .tier2 ∧ (∃ flag, Flagged codec c s t flag ∧
            Stored gcm c.store flag s.device t.device) ∨
          status ≠ .tier2 ∧ t.device = s.device)⌝,
      fun e t => ⌜s.Tidy c t ∧ s.SendsOne codec c t ∧
        (t.device = s.device ∨ e = .new .flagStorage ∧ ∃ flag, Flagged codec c s t flag ∧
          StoreFailed gcm c.store flag s.device t.device)⌝⟩⦄ := by
  mvcgen [attempt]
  all_goals grind [Phone.Tidy, Phone.SendsOne, Flagged, accepted_two, forOutcome_eq_tier2_iff]

/-- The device part of an attempt that was answered with a flag: the call of `store` returned or
failed. -/
def Offered (gcm : Gcm Key) (codec : WireCodec) (c : AttemptConditions Key AttestKey)
    (s t : Phone Key AttestKey) (flag : Bytes) : Prop :=
  Flagged codec c s t flag ∧
    (Stored gcm c.store flag s.device t.device ∨ StoreFailed gcm c.store flag s.device t.device)

/-- What a task leaves of the phone, also where it has no result. -/
theorem task_phone (gcm : Gcm Key) (codec : WireCodec) (c : AttemptConditions Key AttestKey)
    (s : Phone Key AttestKey) :
    s.Tidy c (task gcm codec c s).2 ∧ s.SendsOne codec c (task gcm codec c s).2 ∧
      ((task gcm codec c s).2.device = s.device ∨
        ∃ flag, Offered gcm codec c s (task gcm codec c s).2 flag) := by
  have result := Effects.outcome (attempt_spec gcm codec c s)
  rw [task]
  cases ran : attempt gcm codec c s with
  | ok status t =>
    rw [ran] at result
    obtain ⟨tidy, sends, ⟨-, flag, flagged, stored⟩ | ⟨-, same⟩⟩ := result
    · exact ⟨tidy, sends, .inr ⟨flag, flagged, .inl stored⟩⟩
    · exact ⟨tidy, sends, .inl same⟩
  | error e t =>
    rw [ran] at result
    -- The phone is the same whether or not the task has a result.
    have phone : (if e.self = .interrupted then (none, t)
        else (some (Status.forFailure e), t)).2 = t := by split_ifs <;> rfl
    simp only [phone]
    obtain ⟨tidy, sends, same | ⟨-, flag, flagged, failed⟩⟩ := result
    · exact ⟨tidy, sends, .inl same⟩
    · exact ⟨tidy, sends, .inr ⟨flag, flagged, .inr failed⟩⟩

/-- No failure shows the text of success. -/
private theorem forFailure_ne_tier2 (failure : Failure) :
    Status.forFailure failure ≠ .tier2 := by
  rw [Status.forFailure]
  split_ifs <;> simp

private theorem Flagged.unique {codec : WireCodec} {c : AttemptConditions Key AttestKey}
    {s t : Phone Key AttestKey} {flag other : Bytes} (flagged : Flagged codec c s t flag)
    (again : Flagged codec c s t other) : flag = other := by
  obtain ⟨body, -, sent, response, read, attested, opened, answered⟩ := flagged
  obtain ⟨body', -, sent', response', read', attested', opened', answered'⟩ := again
  obtain rfl : body = body' := by simpa [sent] using sent'
  obtain rfl := Except.ok.inj (attested.symm.trans attested')
  obtain rfl := Except.ok.inj (opened.symm.trans opened')
  have same := Except.ok.inj (answered.symm.trans answered')
  exact (AttestOutcome.accepted.inj same).2

/-- A call that returned has used a key. -/
private theorem Stored.changes {gcm : Gcm Key} {c : Conditions Key} {flag : Bytes}
    {d t : Device Key} (stored : Stored gcm c flag d t) : t ≠ d := by
  obtain ⟨u, ran, rfl⟩ := stored
  obtain ⟨key, record, -, -, uses, -⟩ := Effects.of_returned (FlagStore.store_spec gcm c 2 flag d) ran
  intro same
  have := congrArg Device.uses same
  simp [uses] at this

/-- A task results in the text of success exactly if it has stored the flag that its request was
answered with. -/
theorem task_eq_tier2_iff (gcm : Gcm Key) (codec : WireCodec)
    (c : AttemptConditions Key AttestKey) (s : Phone Key AttestKey) :
    (task gcm codec c s).1 = some .tier2 ↔
      ∃ flag, Flagged codec c s (task gcm codec c s).2 flag ∧
        Stored gcm c.store flag s.device (task gcm codec c s).2.device := by
  have result := Effects.outcome (attempt_spec gcm codec c s)
  rw [task]
  cases ran : attempt gcm codec c s with
  | ok status t =>
    rw [ran] at result
    obtain ⟨-, -, ⟨rfl, success⟩ | ⟨other, same⟩⟩ := result
    · exact ⟨fun _ => success, fun _ => rfl⟩
    · refine ⟨fun shown => absurd (Option.some.inj shown) other, ?_⟩
      rintro ⟨flag, -, stored⟩
      exact absurd same stored.changes
  | error e t =>
    rw [ran] at result
    have phone : (if e.self = .interrupted then (none, t)
        else (some (Status.forFailure e), t)).2 = t := by split_ifs <;> rfl
    simp only [phone]
    refine iff_of_false ?_ ?_
    · split_ifs
      · simp
      · simpa using forFailure_ne_tier2 e
    · rintro ⟨flag, flagged, stored⟩
      obtain ⟨-, -, same | ⟨-, other, flaggedToo, failed⟩⟩ := result
      · exact stored.changes same
      · obtain rfl := flagged.unique flaggedToo
        obtain ⟨u, returned, -⟩ := stored
        obtain ⟨e, u, threw, -⟩ := failed
        cases returned.symm.trans threw

/-- The record of this flag under a key that passed the hardware check. -/
def Seals (gcm : Gcm Key) (c : Conditions Key) (flag : Bytes) (record : FlagRecord) : Prop :=
  ∃ key, c.Passes key ∧ FlagRecord.create currentVersion 2 c.iv
    (gcm.encrypt key c.iv (aadOf currentVersion 2) flag) = .ok record

/-- What a call of `store` leaves of the device, whether it returned or failed. -/
theorem Offered.device {gcm : Gcm Key} {codec : WireCodec} {c : AttemptConditions Key AttestKey}
    {s t : Phone Key AttestKey} {flag : Bytes} (offered : Offered gcm codec c s t flag) :
    t.device.flag = List.replicate flag.length 0 ∧
      (t.device.files (.record 1) = s.device.files (.record 1) ∨
        t.device.files (.record 1) = none) ∧
      (t.device.files (.record 2) = s.device.files (.record 2) ∨
        t.device.files (.record 2) = none ∨
        ∃ record, Seals gcm c.store flag record ∧
          t.device.files (.record 2) = some record.encode) ∧
      s.device.UsesOne c.store (fun key use => use = Use.ofFlag gcm c.store 2 flag key) t.device := by
  have written := Effects.outcome (FlagStore.store_spec gcm c.store 2 flag s.device)
  have files := Effects.outcome (FlagStore.store_files gcm c.store 2 flag s.device)
  obtain ⟨-, ⟨u, ran, same⟩ | ⟨e, u, ran, same⟩⟩ := offered
  · rw [ran] at written files
    obtain ⟨key, record, passes, -, uses, created, present, -⟩ := written
    rw [same]
    refine ⟨rfl, .inl (files.2 _ (by simp) (by simp)), .inr (.inr ⟨record, ?_, present⟩),
      .inr ⟨key, _, passes, rfl, uses⟩⟩
    exact ⟨key, passes, created⟩
  · rw [ran] at written files
    rw [same]
    have kept : ∀ tier, u.files (.record tier) = s.device.files (.record tier) ∨
        u.files (.record tier) = none := by
      intro tier
      rcases files with ⟨-, deleted⟩ | ⟨-, others⟩
      · rw [deleted, Conditions.without]
        split_ifs <;> simp
      · exact .inl (others _ (by simp))
    refine ⟨rfl, kept 1, (kept 2).imp_right .inl, ?_⟩
    rcases written.1 with idle | ⟨key, use, passes, ⟨-, made⟩, uses⟩
    · exact .inl idle
    · exact .inr ⟨key, use, passes, made, uses⟩

end MainActivity

end UncrackableL5
