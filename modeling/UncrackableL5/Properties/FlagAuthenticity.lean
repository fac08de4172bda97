import UncrackableL5.Library.Transition
import UncrackableL5.Properties.FlagCalls

/-!
# Authenticity of stored flags

Whatever happens to the files and to the Keystore entry between the calls, what `read` returns was
encrypted, and every encryption was made by a `store`. The associated data names the tier.

## Main results

- `Device.step_uses`: what one event has a key do, and that the key was checked in it.
- `Device.Recorded`, `stored_flag_authentic`: every encryption goes back to a `store`, and so does
  every flag that `read` returns.
-/
namespace UncrackableL5

open Transition
open FlagRecord (aadOf currentVersion)

variable {Key : Type} [DecidableEq Key]

/-! ### One event -/

/-- The conditions under which an event calls the store. -/
def DeviceEvent.conditions {Key : Type} : DeviceEvent Key → Option (Conditions Key)
  | .store _ _ c | .read _ c => some c
  | .tamper _ _ | .rekey _ => none

/-- The event stores `flag` for `tier` and encrypts it under `key`. -/
def Device.Stores (gcm : Gcm Key) (tier : Int) (flag : Bytes) (key : Key) (d : Device Key)
    (event : DeviceEvent Key) : Prop :=
  ∃ c, event = .store tier flag c ∧ (1 ≤ tier ∧ tier ≤ 2) ∧
    (d.after (FlagStore.store gcm c tier flag)).uses = d.uses ++ [Use.ofFlag gcm c tier flag key]

/-- What the Keystore does in one event: at most one use of a key that was checked in it, which
encrypts the flag of a `store` or decrypts. -/
structure Device.Used (gcm : Gcm Key) (d : Device Key) (event : DeviceEvent Key) (use : Use Key) :
    Prop where
  checked : ∃ c, event.conditions = some c ∧ c.Passes use.key
  purpose : (∃ tier flag c, event = .store tier flag c ∧ use = Use.ofFlag gcm c tier flag use.key ∧
      d.Stores gcm tier flag use.key event) ∨
    ∃ iv aad ciphertext, use = .decrypted use.key iv aad ciphertext

namespace Device

variable {gcm : Gcm Key} {d t : Device Key} {event : DeviceEvent Key}

omit [DecidableEq Key] in
/-- A `store` encrypts at most its own flag, with a tier that it accepts. -/
private theorem uses_of_store (c : Conditions Key) (tier : Int) (flag : Bytes) :
    d.UsesOne c (fun key use => (1 ≤ tier ∧ tier ≤ 2) ∧ use = Use.ofFlag gcm c tier flag key)
      (d.after (FlagStore.store gcm c tier flag)) := by
  have result := Effects.outcome (FlagStore.store_spec gcm c tier flag d)
  simp only [after]
  cases ran : FlagStore.store gcm c tier flag d with
  | error e t =>
    rw [ran] at result
    exact result.1
  | ok _ t =>
    rw [ran] at result
    obtain ⟨key, record, passes, -, uses, created, -⟩ := result
    have valid := record.valid.2.1
    rw [(FlagRecord.create_eq_ok_iff.mp created).2.1] at valid
    exact Or.inr ⟨key, _, passes, ⟨valid, rfl⟩, uses⟩

private theorem uses_of_read (c : Conditions Key) (tier : Int) :
    d.UsesOne c (fun key use => ∃ iv aad ciphertext, use = .decrypted key iv aad ciphertext)
      (d.after (FlagStore.read gcm c tier)) := by
  have result := Effects.outcome (FlagStore.read_spec gcm c tier d)
  simp only [after]
  cases ran : FlagStore.read gcm c tier d with
  | error e t =>
    rw [ran] at result
    exact result
  | ok answer t =>
    rw [ran] at result
    cases answer with
    | none => exact result.2
    | some flag =>
      obtain ⟨key, -, record, -, -, -, passes, -, rfl, -⟩ := result
      exact Or.inr ⟨key, _, passes, ⟨_, _, _, rfl⟩, rfl⟩

/-- One event uses no key, or one key for one purpose. -/
theorem step_uses (taken : d.step gcm event = some t) :
    t.uses = d.uses ∨ ∃ use, t.uses = d.uses ++ [use] ∧ d.Used gcm event use := by
  cases event with
  | tamper | rekey =>
    cases taken
    exact Or.inl rfl
  | store tier flag c =>
    cases taken
    rcases uses_of_store c tier flag with same | ⟨key, use, passes, ⟨valid, rfl⟩, uses⟩
    · exact Or.inl same
    · exact Or.inr ⟨_, uses, ⟨c, rfl, passes⟩,
        Or.inl ⟨tier, flag, c, rfl, rfl, c, rfl, valid, uses⟩⟩
  | read tier c =>
    cases taken
    rcases uses_of_read c tier with same | ⟨key, use, passes, ⟨iv, aad, ciphertext, rfl⟩, uses⟩
    · exact Or.inl same
    · exact Or.inr ⟨_, uses, ⟨c, rfl, passes⟩, Or.inr ⟨iv, aad, ciphertext, rfl⟩⟩

/-! ### Runs -/

/-- An encryption of which the history knows: it was made by a `store`. -/
def Recorded (gcm : Gcm Key) (start : Device Key) (past : List (DeviceEvent Key)) (use : Use Key) :
    Prop :=
  ∀ key iv aad flag ciphertext, use = .encrypted key iv aad flag ciphertext →
    ciphertext = gcm.encrypt key iv aad flag ∧
    ∃ tier, (1 ≤ tier ∧ tier ≤ 2) ∧ aad = aadOf currentVersion tier ∧
      Happened (step gcm) (Stores gcm tier flag key) start past

/-- One event keeps every encryption on record. -/
private theorem recorded_snoc {start : Device Key} {past : List (DeviceEvent Key)}
    (reached : Run (step gcm) start past d) (taken : d.step gcm event = some t)
    (recorded : ∀ use ∈ d.uses, Recorded gcm start past use) :
    ∀ use ∈ t.uses, Recorded gcm start (past ++ [event]) use := by
  have kept : ∀ use ∈ d.uses, Recorded gcm start (past ++ [event]) use := by
    intro use member key iv aad flag ciphertext same
    obtain ⟨genuine, tier, valid, names, happened⟩ := recorded use member _ _ _ _ _ same
    exact ⟨genuine, tier, valid, names, (happened_snoc reached event).mpr (Or.inl happened)⟩
  intro use member
  rcases step_uses taken with same | ⟨new, uses, used⟩
  · exact kept use (same ▸ member)
  · rw [uses] at member
    rcases List.mem_append.mp member with old | isNew
    · exact kept use old
    · obtain rfl := List.mem_singleton.mp isNew
      intro key iv aad flag ciphertext same
      subst same
      rcases used.purpose with ⟨tier, stored, c, rfl, same, stores⟩ | ⟨_, _, _, decrypted⟩
      · simp only [Use.key, Use.ofFlag, Use.encrypted.injEq, true_and] at same
        obtain ⟨rfl, rfl, rfl, rfl⟩ := same
        have valid : 1 ≤ tier ∧ tier ≤ 2 := stores.choose_spec.2.1
        exact ⟨rfl, tier, valid, rfl, (happened_snoc reached _).mpr (Or.inr stores)⟩
      · cases decrypted

private theorem recorded_of_run {files : FileName → Option Bytes} {entry : Option (KeyEntry Key)}
    {past : List (DeviceEvent Key)} (taken : Run (step gcm) (.initial files entry) past d) :
    ∀ use ∈ d.uses, Recorded gcm (.initial files entry) past use :=
  taken.history (fun past d => ∀ use ∈ d.uses, Recorded gcm (.initial files entry) past use)
    (fun _ member => absurd member List.not_mem_nil)
    (fun _ _ _ _ reached recorded step => recorded_snoc reached step recorded)

end Device

/-- The associated data of the two tiers differs. -/
private theorem aadOf_injective {s t : Int} (first : 1 ≤ s ∧ s ≤ 2) (second : 1 ≤ t ∧ t ≤ 2)
    (same : aadOf currentVersion s = aadOf currentVersion t) : s = t := by
  have octets : toByte s = toByte t := (List.cons.inj (List.cons.inj same).2).1
  rw [← toByte_toNat (v := s) (by omega) (by omega), octets,
    toByte_toNat (by omega) (by omega)]

private theorem exists_of_produced {uses : List (Use Key)} {key : Key} {iv aad ciphertext : Bytes}
    (produced : uses.any (Use.produces key iv aad ciphertext) = true) :
    ∃ flag, Use.encrypted key iv aad flag ciphertext ∈ uses := by
  obtain ⟨use, member, matching⟩ := List.any_eq_true.mp produced
  cases use with
  | decrypted => cases matching
  | encrypted key' iv' aad' flag ciphertext' =>
    simp only [Use.produces, Bool.and_eq_true, decide_eq_true_eq] at matching
    obtain ⟨⟨⟨rfl, rfl⟩, rfl⟩, rfl⟩ := matching
    exact ⟨flag, member⟩

/-- In every run, whatever is done to the files and to the key between the calls: a flag that `read`
returns was passed to an earlier `store` for the tier, which encrypted it under the key that is now
in the Keystore; when `read` returns nothing, there is no file any more, as far as it can be
deleted; and every key that is used in an event passed the hardware check of that event. -/
theorem stored_flag_authentic (gcm : Gcm Key) (files : FileName → Option Bytes)
    (entry : Option (KeyEntry Key)) (events : List (DeviceEvent Key)) (d : Device Key)
    (taken : Run (Device.step gcm) (.initial files entry) events d) :
    (∀ tier c flag t, FlagStore.read gcm c tier d = .ok (some flag) t →
      ∃ key, d.entry = some (.secretKey key) ∧ t.entry = some (.secretKey key) ∧
        Happened (Device.step gcm) (Device.Stores gcm tier flag key) (.initial files entry)
          events) ∧
    (∀ tier c t, FlagStore.read gcm c tier d = .ok none t → c.deletes (.record tier) = true →
      t.files (.record tier) = none) ∧
    (∀ event t, d.step gcm event = some t → ∃ new, t.uses = d.uses ++ new ∧
      ∀ use ∈ new, ∃ c, event.conditions = some c ∧ c.Passes use.key) := by
  refine ⟨?_, ?_, ?_⟩
  · intro tier c flag t ran
    obtain ⟨key, bytes, record, -, decoded, rfl, -, current, rfl, produced, decrypts⟩ :=
      Effects.of_returned (FlagStore.read_spec gcm c tier d) ran
    obtain ⟨stored, member⟩ := exists_of_produced produced
    obtain ⟨genuine, tier, valid, names, happened⟩ :=
      Device.recorded_of_run taken _ member _ _ _ _ _ rfl
    -- the associated data of the record is that of its tier and of no other
    rw [FlagRecord.aad, FlagRecord.decode_version decoded] at names genuine decrypts
    obtain rfl := aadOf_injective record.valid.2.1 valid names
    rw [genuine, gcm.decrypt_encrypt] at decrypts
    cases decrypts
    exact ⟨key, current, current, happened⟩
  · intro tier c t ran
    exact (Effects.of_returned (FlagStore.read_spec gcm c tier d) ran).1
  · intro event t step
    rcases Device.step_uses step with same | ⟨use, uses, used⟩
    · exact ⟨[], by simpa using same, nofun⟩
    · refine ⟨[use], uses, fun other member => ?_⟩
      rw [List.mem_singleton.mp member]
      exact used.checked

namespace Sample

def storedFlag : Bytes := [0x66, 0x6C, 0x61, 0x67]

def flagIv : Bytes := [0, 1, 2, 3, 4, 5, 6, 7, 8, 9, 10, 11]

-- under the key of 32 zeros, for tier 2
def sealedFlag : Bytes :=
  [0xEE, 0xA7, 0x52, 0x35, 0x5B, 0x9A, 0x31, 0xF5, 0x0B, 0x7E, 0xFB, 0x7D, 0xAE, 0x21, 0x55, 0x1F,
    0x20, 0x69, 0xEA, 0x22]

private theorem append_zeros_ne (plaintext : Bytes) :
    plaintext ++ List.replicate tagBytes 0 ≠ sealedFlag := by
  intro same
  have last := congrArg List.getLast? same
  simp [tagBytes, sealedFlag] at last

/-- AES-GCM on the flag, and a stand-in elsewhere. -/
def gcm : Gcm Nat where
  encrypt _ iv aad plaintext :=
    if iv = flagIv ∧ aad = [1, 2] ∧ plaintext = storedFlag then sealedFlag
    else plaintext ++ List.replicate tagBytes 0
  decrypt _ iv aad ciphertext :=
    if iv = flagIv ∧ aad = [1, 2] ∧ ciphertext = sealedFlag then some storedFlag
    else some (ciphertext.take (ciphertext.length - tagBytes))
  decrypt_encrypt _ iv aad plaintext := by
    split
    next real =>
      obtain ⟨rfl, rfl, rfl⟩ := real
      rfl
    next =>
      rw [if_neg fun real => append_zeros_ne plaintext real.2.2]
      simp
  length_encrypt _ iv aad plaintext := by
    split
    next real =>
      obtain ⟨-, -, rfl⟩ := real
      rfl
    next => simp

/-- A device in good order, with a key in StrongBox. -/
def conditions : Conditions Nat where
  sdkInt := 34
  hasStrongBox := true
  load := .ok ()
  getKey := .ok ()
  getKeySpec _ := .ok { securityLevel := 2, isInsideSecureHardware := true }
  generateKey _ := .ok 0
  deleteRefused _ := .ok ()
  deleteFailed := .ok ()
  getInstance := .ok ()
  init _ := .ok ()
  iv := flagIv
  doFinal := .ok ()
  isReadable := true
  write := .ok ()
  renames := true
  deletes _ := true

end Sample

/-- The record of tier 2 is copied to tier 1, where it is discarded, and read at its own place. -/
theorem stored_flag_authentic_sample :
    ∃ record d t, Run (Device.step Sample.gcm) (.initial (fun _ => none) none)
        [.store 2 Sample.storedFlag Sample.conditions, .tamper (.record 1) (some record),
          .read 1 Sample.conditions] d ∧
      d.files (.record 1) = none ∧ d.files (.record 2) = some record ∧
      FlagStore.read Sample.gcm Sample.conditions 2 d = .ok (some Sample.storedFlag) t ∧
      ∃ key, d.entry = some (.secretKey key) ∧ t.entry = some (.secretKey key) ∧
        Happened (Device.step Sample.gcm) (Device.Stores Sample.gcm 2 Sample.storedFlag key)
          (.initial (fun _ => none) none)
          [.store 2 Sample.storedFlag Sample.conditions, .tamper (.record 1) (some record),
            .read 1 Sample.conditions] := by
  have taken : Run (Device.step Sample.gcm) (.initial (fun _ => none) none)
      [.store 2 Sample.storedFlag Sample.conditions,
        .tamper (.record 1) (some (1 :: 2 :: 12 :: (Sample.flagIv ++ Sample.sealedFlag))),
        .read 1 Sample.conditions] _ := rfl
  exact ⟨_, _, _, taken, rfl, rfl, rfl,
    (stored_flag_authentic Sample.gcm _ _ _ _ taken).1 2 Sample.conditions _ _ rfl⟩

end UncrackableL5
