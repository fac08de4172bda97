import UncrackableL5.Android.Backend
import UncrackableL5.Library.Transition
import UncrackableL5.Properties.FlagAuthenticity

/-!
# Reading stored flags back

`decode` refuses records of more than `MAX_SIZE` octets, and nothing keeps `store` from writing
them. With an IV of 12 octets and a tag of 16, the longest flag that can be read back has 4065
octets.

## Main results

- `FlagStore.store_works`, `FlagStore.read_works`: the two calls on a platform without faults.
- `stored_flag_readable_iff`: which stored flags are read back.
-/
namespace UncrackableL5

open Transition
open FlagRecord (aadOf currentVersion)

variable {Key : Type}

/-- The platform answers without faults and lets this key pass. -/
structure Conditions.Works (c : Conditions Key) (key : Key) : Prop where
  load : c.load = .ok ()
  getKey : c.getKey = .ok ()
  passes : c.Passes key
  getInstance : c.getInstance = .ok ()
  init : c.init key = .ok ()
  doFinal : c.doFinal = .ok ()
  isReadable : c.isReadable = true

namespace FlagStore

/-! ### Calls that meet no fault -/

variable {gcm : Gcm Key} {c : Conditions Key} {k : Key} {d : Device Key}

private theorem call_ok {α : Type} {answer : Except Throwable α} {a : α} (answers : answer = .ok a)
    (d : Device Key) : (call answer : App Key α) d = .ok a d := by
  rw [answers]
  rfl

private theorem requireTier_works {tier : Int} (valid : 1 ≤ tier ∧ tier ≤ 2) (d : Device Key) :
    requireTier tier d = .ok () d := by
  rw [requireTier, if_pos valid]
  rfl

private theorem readRecord_works {bytes : Bytes} {result : Option FlagRecord}
    (readable : c.isReadable = true) (decoded : FlagRecord.decode bytes = .ok result)
    (d : Device Key) : readRecord c bytes d = .ok result d := by
  rw [readRecord, if_pos readable]
  exact call_ok decoded d

/-- The key of the Keystore passes. -/
theorem key_works (works : c.Works k) (present : d.entry = some (.secretKey k)) (create : Bool) :
    key c create d = .ok (some k) d := by
  obtain ⟨info, answer, hardware⟩ := works.passes
  have found : FlagStore.getKey c d = .ok (some k) d := by
    rw [FlagStore.getKey, Effects.bind_of_returned _ (call_ok works.getKey d)]
    simp only [bind, EStateM.bind, get, getThe, MonadStateOf.get, EStateM.get, present]
    rfl
  have checked : requireHardware c k d = .ok k d := by
    rw [requireHardware, Effects.bind_of_returned _ (call_ok answer d), if_pos hardware]
    rfl
  rw [key, Effects.bind_of_returned _ (call_ok works.load d), Effects.bind_of_returned _ found]
  exact Effects.bind_of_returned _ checked

theorem initCipher_works (works : c.Works k) : initCipher c (some k) d = .ok k d :=
  Effects.bind_of_returned _ (call_ok works.init d)

theorem encryptFlag_works (works : c.Works k) (present : d.entry = some (.secretKey k)) (tier : Int)
    (flag : Bytes) {record : FlagRecord}
    (created : FlagRecord.create currentVersion tier c.iv
      (gcm.encrypt k c.iv (aadOf currentVersion tier) flag) = .ok record) :
    encryptFlag gcm c tier flag d = .ok record (d.using (Use.ofFlag gcm c tier flag k)) := by
  rw [encryptFlag, Effects.bind_of_returned _ (key_works works present true),
    Effects.bind_of_returned _ (initCipher_works works)]
  have sealed : encryptFinal gcm c k (aadOf currentVersion tier) flag d =
      .ok (gcm.encrypt k c.iv (aadOf currentVersion tier) flag)
        (d.using (Use.ofFlag gcm c tier flag k)) :=
    Effects.bind_of_returned _ (call_ok works.doFinal _)
  rw [Effects.bind_of_returned _ sealed]
  exact call_ok created _

theorem zeroing_works {α : Type} {x : App Key α} {a : α} {t : Device Key} (ran : x d = .ok a t) :
    zeroing x d = .ok a { t with flag := List.replicate t.flag.length 0 } :=
  Effects.bind_of_returned _ (Effects.tryCatch_of_returned _ ran)

/-- A record that fits the constructor is written and takes the place of the old one. -/
theorem store_works (works : c.Works k) (present : d.entry = some (.secretKey k)) {tier : Int}
    (flag : Bytes) {record : FlagRecord}
    (created : FlagRecord.create currentVersion tier c.iv
      (gcm.encrypt k c.iv (aadOf currentVersion tier) flag) = .ok record)
    (writes : c.write = .ok ()) (renames : c.renames = true) :
    ∃ t, store gcm c tier flag d = .ok () t := by
  have tiers := record.valid.2.1
  rw [(FlagRecord.create_eq_ok_iff.mp created).2.1] at tiers
  let given : Device Key := { d with flag := flag }
  have encrypted : encryptFlag gcm c tier flag given =
      .ok record (given.using (Use.ofFlag gcm c tier flag k)) :=
    encryptFlag_works works (d := given) present tier flag created
  have written : ∀ s : Device Key, writeBytes c (.temp tier) record.encode s = .ok () { s with
      files := Function.update s.files (.temp tier) (some record.encode) } := by
    intro s
    simp only [writeBytes, writes]
    rfl
  have renamed : ∀ s : Device Key, ∃ t, renameTo c (.temp tier) (.record tier) s = .ok true t := by
    intro s
    simp only [renameTo, renames]
    exact ⟨_, rfl⟩
  obtain ⟨t, moved⟩ := renamed _
  refine ⟨t, ?_⟩
  rw [store, Effects.bind_modify]
  refine (Effects.bind_of_returned _ (requireTier_works tiers given)).trans ?_
  apply Effects.tryCatch_of_returned
  refine (Effects.bind_of_returned _ (call_ok works.getInstance given)).trans ?_
  refine (Effects.bind_of_returned _ (zeroing_works encrypted)).trans ?_
  refine (Effects.bind_of_returned _ (written _)).trans ?_
  exact Effects.bind_of_returned _ moved

theorem decryptRecord_works [DecidableEq Key] (works : c.Works k)
    (present : d.entry = some (.secretKey k)) (target : FileName) {record : FlagRecord}
    {flag : Bytes}
    (produced : d.uses.any (Use.produces k record.iv record.aad record.ciphertext) = true)
    (decrypts : gcm.decrypt k record.iv record.aad record.ciphertext = some flag) :
    decryptRecord gcm c target record d =
      .ok (some flag) (d.using (.decrypted k record.iv record.aad record.ciphertext)) := by
  have opened : decryptFinal gcm c k record.iv record.aad record.ciphertext d =
      .ok flag (d.using (.decrypted k record.iv record.aad record.ciphertext)) := by
    rw [decryptFinal, Effects.bind_get]
    refine (Effects.bind_modify _ _).trans ?_
    refine (Effects.bind_of_returned _ (call_ok works.doFinal _)).trans ?_
    simp only [produced, ↓reduceIte, decrypts]
    rfl
  rw [decryptRecord, Effects.bind_of_returned _ (key_works works present false)]
  refine (Effects.bind_of_returned _ (call_ok works.getInstance d)).trans ?_
  refine (Effects.bind_of_returned _ (initCipher_works works)).trans ?_
  exact Effects.bind_of_returned _ opened

/-- A record that decodes and was encrypted here is decrypted. -/
theorem read_works [DecidableEq Key] (works : c.Works k) (present : d.entry = some (.secretKey k))
    {record : FlagRecord} {bytes flag : Bytes}
    (file : d.files (.record record.tier) = some bytes)
    (decoded : FlagRecord.decode bytes = .ok (some record))
    (produced : d.uses.any (Use.produces k record.iv record.aad record.ciphertext) = true)
    (decrypts : gcm.decrypt k record.iv record.aad record.ciphertext = some flag) :
    read gcm c record.tier d =
      .ok (some flag) (d.using (.decrypted k record.iv record.aad record.ciphertext)) := by
  rw [read, Effects.bind_of_returned _ (requireTier_works record.valid.2.1 d)]
  refine (Effects.bind_get _).trans ?_
  simp only [file]
  refine (Effects.bind_of_returned _ (readRecord_works works.isReadable decoded d)).trans ?_
  simp only [ne_eq, not_true_eq_false, ↓reduceIte]
  exact Effects.tryCatch_of_returned _ (decryptRecord_works works present _ produced decrypts)

/-- A file that is no record is deleted. -/
theorem read_malformed [DecidableEq Key] (gcm : Gcm Key) {tier : Int}
    (valid : 1 ≤ tier ∧ tier ≤ 2) (readable : c.isReadable = true) {bytes : Bytes}
    (file : d.files (.record tier) = some bytes)
    (malformed : FlagRecord.decode bytes = .ok none) :
    read gcm c tier d = .ok none (d.after (deleteFile c (.record tier))) := by
  rw [read, Effects.bind_of_returned _ (requireTier_works valid d)]
  refine (Effects.bind_get _).trans ?_
  simp only [file]
  refine (Effects.bind_of_returned _ (readRecord_works readable malformed d)).trans ?_
  rfl

end FlagStore

/-! ### The longest flag -/

/-- Only tier 2 is accepted. -/
theorem Backend.accepted_tier {decoders : Decoders} {code : Nat} {body : Option Bytes} {tier : Int}
    {flag : Bytes} (accepted : attestResponse decoders code body = .ok (.accepted tier flag)) :
    tier = 2 := by
  rw [attestResponse, bind_ok_iff] at accepted
  obtain ⟨text, -, accepted⟩ := accepted
  split at accepted
  next =>
    rw [bind_ok_iff] at accepted
    obtain ⟨parsed, -, accepted⟩ := accepted
    split at accepted
    next => cases accepted
    next two =>
      cases accepted
      exact not_not.mp two
  next =>
    rw [bind_ok_iff] at accepted
    obtain ⟨code, -, accepted⟩ := accepted
    cases accepted
  next => cases accepted
  next => cases accepted
  next => cases accepted

namespace Device

/-- The Keystore never forgets what it has encrypted. -/
theorem uses_of_run [DecidableEq Key] {gcm : Gcm Key} {d t : Device Key}
    {events : List (DeviceEvent Key)} (taken : Run (step gcm) d events t) :
    ∀ use ∈ d.uses, use ∈ t.uses := by
  refine taken.grows (fun d t => ∀ use ∈ d.uses, use ∈ t.uses) (fun _ _ member => member)
    (fun _ _ _ first second use member => second use (first use member)) ?_
  intro d event t step use member
  rcases step_uses step with same | ⟨new, uses, -⟩
  · exact same ▸ member
  · exact uses ▸ List.mem_append_left _ member

end Device

/-- The record that a `store` has written, and what `decode` makes of it. -/
private theorem decode_stored {gcm : Gcm Key} {c : Conditions Key} {tier : Int} {flag : Bytes}
    {d t : Device Key} (iv : c.iv.length = 12)
    (stored : FlagStore.store gcm c tier flag d = .ok () t) :
    ∃ key record, t.entry = some (.secretKey key) ∧
      t.uses = d.uses ++ [.encrypted key record.iv record.aad flag record.ciphertext] ∧
      record.ciphertext = gcm.encrypt key record.iv record.aad flag ∧ record.tier = tier ∧
      t.files (.record tier) = some record.encode ∧
      FlagRecord.decode record.encode =
        .ok (if flag.length ≤ 4065 then some record else none) := by
  obtain ⟨key, record, -, present, uses, created, file, -⟩ :=
    Effects.of_returned (FlagStore.store_spec gcm c tier flag d) stored
  obtain ⟨version, rfl, sameIv, ciphertext⟩ := FlagRecord.create_eq_ok_iff.mp created
  have size : record.encode.length = 31 + flag.length := by
    rw [record.encode_length, sameIv, ciphertext, iv, gcm.length_encrypt, tagBytes]
    omega
  have bound : record.encode.length ≤ FlagRecord.maxSize ↔ flag.length ≤ 4065 := by
    rw [size, FlagRecord.maxSize]
    omega
  have decoded := FlagRecord.decode_encode record version
  simp only [bound] at decoded
  rw [Use.ofFlag, ← version, ← sameIv, ← FlagRecord.aad] at uses
  rw [← version, ← sameIv, ← FlagRecord.aad] at ciphertext
  rw [← ciphertext] at uses
  exact ⟨key, record, present, uses, ciphertext, rfl, file, decoded⟩

/-- A flag that was accepted and stored is read back if and only if it has at most 4065 octets;
that is the case exactly when the stored record is one that `decode` accepts. -/
theorem stored_flag_readable_iff [DecidableEq Key] (decoders : Decoders) (code : Nat)
    (body : Option Bytes) (tier : Int) (flag : Bytes)
    (accepted : Backend.attestResponse decoders code body = .ok (.accepted tier flag))
    (gcm : Gcm Key) (c later : Conditions Key) (d t u : Device Key)
    (events : List (DeviceEvent Key)) (iv : c.iv.length = 12)
    (stored : FlagStore.store gcm c tier flag d = .ok () t)
    (between : Run (Device.step gcm) t events u)
    (sameFile : u.files (.record 2) = t.files (.record 2)) (sameKey : u.entry = t.entry)
    (works : ∀ key, t.entry = some (.secretKey key) → later.Works key) :
    ((∃ v, FlagStore.read gcm later 2 u = .ok (some flag) v) ↔ flag.length ≤ 4065) ∧
    ∃ record : FlagRecord, t.files (.record 2) = some record.encode ∧
      (FlagRecord.decode record.encode = .ok (some record) ↔ flag.length ≤ 4065) := by
  obtain rfl := Backend.accepted_tier accepted
  obtain ⟨key, record, present, uses, ciphertext, tier, file, decoded⟩ := decode_stored iv stored
  have accepts : FlagRecord.decode record.encode = .ok (some record) ↔ flag.length ≤ 4065 := by
    rw [decoded]
    split <;> simp [*]
  refine ⟨⟨?_, ?_⟩, record, file, accepts⟩
  · rintro ⟨v, ran⟩
    by_contra long
    rw [if_neg long] at decoded
    have readable := (works key present).isReadable
    have discarded := FlagStore.read_malformed gcm (by omega) readable (sameFile.trans file) decoded
    cases discarded.symm.trans ran
  · intro short
    have remembered := Device.uses_of_run between _
      (uses ▸ List.mem_append_right _ List.mem_cons_self)
    have produced : u.uses.any (Use.produces key record.iv record.aad record.ciphertext) = true :=
      List.any_eq_true.mpr ⟨_, remembered, by simp [Use.produces]⟩
    have decrypts : gcm.decrypt key record.iv record.aad record.ciphertext = some flag := by
      rw [ciphertext, gcm.decrypt_encrypt]
    have unchanged : u.files (.record record.tier) = some record.encode := by
      rw [tier, sameFile, file]
    have ran := FlagStore.read_works (works key present) (sameKey.trans present) unchanged
      (accepts.mpr short) produced decrypts
    rw [tier] at ran
    exact ⟨_, ran⟩

namespace Sample

/-- The accepting response that carries this flag. -/
def flagBody (flag : JavaString) : JavaString :=
  js "\x7b\"tier\":2,\"flag\":\"" ++ flag ++ js "\"\x7d"

def longFlag : JavaString := List.replicate 4066 65

-- ASCII text, and the two responses as objects
def decoders : Decoders where
  readUtf8 octets := octets.map fun b => UInt16.ofNat b.toNat
  flagResponse text :=
    ([js "flag", longFlag].find? fun flag => text = flagBody flag).map fun flag =>
      { tier := 2, flag := flag }
  errorResponse _ := none

private theorem flagBody_ascii {flag : JavaString} (ascii : isAscii flag = true) :
    ∀ u ∈ flagBody flag, u.toNat < 0x80 := by
  have start : isAscii (js "\x7b\"tier\":2,\"flag\":\"") = true := by decide +kernel
  have stop : isAscii (js "\"\x7d") = true := by decide +kernel
  simp only [isAscii, List.all_eq_true, decide_eq_true_eq] at ascii start stop
  intro u member
  simp only [flagBody, List.mem_append] at member
  rcases member with (first | inside) | last
  · exact start u first
  · exact ascii u inside
  · exact stop u last

private theorem readUtf8_encode {text : JavaString} (ascii : ∀ u ∈ text, u.toNat < 0x80) :
    decoders.readUtf8 (encodeToByteArray text) = text := by
  rw [encodeToByteArray_ascii text ascii]
  exact fromCharCodes_ascii ascii

theorem flag_accepted {flag : JavaString} (ascii : isAscii flag = true)
    (size : flag.length ≤ 8000)
    (parsed : decoders.flagResponse (flagBody flag) = some { tier := 2, flag := flag }) :
    Backend.attestResponse decoders 200 (some (encodeToByteArray (flagBody flag))) =
      .ok (.accepted 2 (encodeToByteArray flag)) := by
  have whole := flagBody_ascii ascii
  have bounded : (encodeToByteArray (flagBody flag)).length < Backend.maxBody + 1 := by
    rw [encodeToByteArray_ascii _ whole, List.length_map]
    simp only [flagBody, List.length_append, Backend.maxBody]
    have start : (js "\x7b\"tier\":2,\"flag\":\"").length = 18 := by decide +kernel
    have stop : (js "\"\x7d").length = 2 := by decide +kernel
    omega
  rw [Backend.attestResponse, Backend.bounded]
  simp only [if_pos bounded, readUtf8_encode whole]
  change (Backend.decodeBody (decoders.flagResponse (flagBody flag)) >>= _) = _
  rw [parsed]
  rfl

/-- A key in the Keystore and no files. -/
def device : Device Nat where
  files _ := none
  entry := some (.secretKey 0)
  uses := []
  flag := []

theorem conditions_work : conditions.Works 0 where
  load := rfl
  getKey := rfl
  passes := ⟨_, rfl, rfl⟩
  getInstance := rfl
  init := rfl
  doFinal := rfl
  isReadable := rfl

end Sample

theorem stored_flag_readable_iff_sample :
    ∃ t v, FlagStore.store Sample.gcm Sample.conditions 2 Sample.storedFlag Sample.device =
        .ok () t ∧
      FlagStore.read Sample.gcm Sample.conditions 2 t = .ok (some Sample.storedFlag) v := by
  have accepted : Backend.attestResponse Sample.decoders 200
      (some (encodeToByteArray (Sample.flagBody (js "flag")))) =
        .ok (.accepted 2 Sample.storedFlag) :=
    Sample.flag_accepted (by decide +kernel) (by decide +kernel) rfl
  have stored : FlagStore.store Sample.gcm Sample.conditions 2 Sample.storedFlag Sample.device =
      .ok () _ := rfl
  have works : ∀ key, some (KeyEntry.secretKey 0) = some (.secretKey key) →
      Sample.conditions.Works key := by
    rintro key same
    cases same
    exact Sample.conditions_work
  obtain ⟨v, ran⟩ := (stored_flag_readable_iff Sample.decoders 200 _ 2 Sample.storedFlag accepted
    Sample.gcm Sample.conditions Sample.conditions Sample.device _ _ [] rfl stored
    ((run_nil _ _).mpr rfl) rfl rfl works).1.mpr (by decide)
  exact ⟨_, v, stored, ran⟩

namespace Sample

private theorem longFlag_ascii : ∀ u ∈ longFlag, u.toNat < 0x80 := by
  intro u member
  rw [List.eq_of_mem_replicate member]
  decide

private theorem longFlag_accepted :
    Backend.attestResponse decoders 200 (some (encodeToByteArray (flagBody longFlag))) =
      .ok (.accepted 2 (List.replicate 4066 0x41)) := by
  have size : longFlag.length = 4066 := List.length_replicate
  have ascii : isAscii longFlag = true := by
    rw [isAscii, List.all_eq_true]
    intro u member
    exact decide_eq_true (longFlag_ascii u member)
  have other : flagBody longFlag ≠ flagBody (js "flag") := by
    intro same
    have sizes := congrArg List.length same
    have short : (js "flag").length = 4 := by decide +kernel
    simp only [flagBody, List.length_append, size, short] at sizes
    omega
  have octets : encodeToByteArray longFlag = List.replicate 4066 0x41 := by
    rw [encodeToByteArray_ascii _ longFlag_ascii, longFlag, List.map_replicate]
    rfl
  rw [flag_accepted ascii (by omega) (by simp [decoders, other]), octets]

end Sample

/-- The app accepts and stores a flag of 4066 octets, and the next `read` discards it. -/
theorem long_flag_discarded :
    Backend.attestResponse Sample.decoders 200
        (some (encodeToByteArray (Sample.flagBody Sample.longFlag))) =
      .ok (.accepted 2 (List.replicate 4066 0x41)) ∧
    ∀ gcm : Gcm Nat, ∃ t v,
      FlagStore.store gcm Sample.conditions 2 (List.replicate 4066 0x41) Sample.device = .ok () t ∧
      FlagStore.read gcm Sample.conditions 2 t = .ok none v ∧ v.files (.record 2) = none := by
  refine ⟨Sample.longFlag_accepted, ?_⟩
  intro gcm
  have created : ∃ record, FlagRecord.create currentVersion 2 Sample.conditions.iv
      (gcm.encrypt 0 Sample.conditions.iv (aadOf currentVersion 2) (List.replicate 4066 0x41)) =
        .ok record := by
    rw [FlagRecord.create, dif_pos]
    · exact ⟨_, rfl⟩
    · rw [gcm.length_encrypt, List.length_replicate]
      decide
  obtain ⟨record, created⟩ := created
  obtain ⟨t, stored⟩ := FlagStore.store_works Sample.conditions_work
    (d := Sample.device) rfl (List.replicate 4066 0x41) created rfl rfl
  obtain ⟨_, record, -, -, -, -, file, decoded⟩ := decode_stored rfl stored
  rw [List.length_replicate, if_neg (by decide)] at decoded
  have readable : Sample.conditions.isReadable = true := rfl
  have ran := FlagStore.read_malformed gcm (by decide) readable file decoded
  exact ⟨t, _, stored, ran,
    (Effects.of_returned (FlagStore.read_spec gcm Sample.conditions 2 t) ran).1 rfl⟩

end UncrackableL5
