import UncrackableL5.Android.FlagStore
import UncrackableL5.Library.Effects

/-!
# Calls of the flag store

One triple for each function of the store: what holds of the device when it returns, and when it
throws.

## Main results

- `FlagStore.key_spec`: a key is handed out only after it passed the hardware check of this call.
- `FlagStore.store_spec`, `FlagStore.read_spec`: what the two calls use, write and delete.
-/
namespace UncrackableL5

open Std.Do
open FlagRecord (aadOf currentVersion)

set_option mvcgen.warning false

variable {Key : Type}

/-- The hardware check lets this key pass in this call. -/
def Conditions.Passes (c : Conditions Key) (key : Key) : Prop :=
  ∃ info, c.getKeySpec key = .ok info ∧ FlagStore.isHardware c.sdkInt info = true

/-- No key was used, and the caller's array is as it was. -/
def Device.Idle (d t : Device Key) : Prop := t.uses = d.uses ∧ t.flag = d.flag

/-- The device after one more use of a key. -/
def Device.using (d : Device Key) (use : Use Key) : Device Key := { d with uses := d.uses ++ [use] }

/-- What a `store` of this flag has the Keystore encrypt. -/
def Use.ofFlag (gcm : Gcm Key) (c : Conditions Key) (tier : Int) (flag : Bytes) (key : Key) :
    Use Key :=
  .encrypted key c.iv (aadOf currentVersion tier) flag
    (gcm.encrypt key c.iv (aadOf currentVersion tier) flag)

/-- At most one use of a key, and that of one that passed the hardware check. -/
def Device.UsesOne (c : Conditions Key) (kind : Key → Use Key → Prop) (d t : Device Key) : Prop :=
  t.uses = d.uses ∨ ∃ key use, c.Passes key ∧ kind key use ∧ t.uses = d.uses ++ [use]

namespace FlagStore

/-! ### The platform -/

@[spec] theorem call_spec {α : Type} (answer : Except Throwable α) (d : Device Key) :
    ⦃fun s => ⌜s = d⌝⦄ call answer
    ⦃post⟨fun a s => ⌜answer = .ok a ∧ s = d⌝, fun e s => ⌜answer = .error e ∧ s = d⌝⟩⦄ := by
  mvcgen [call]

@[spec] theorem deleteFile_spec (c : Conditions Key) (name : FileName) (d : Device Key) :
    ⦃fun s => ⌜s = d⌝⦄ deleteFile c name
    ⦃post⟨fun _ s => ⌜d.Idle s ∧ s.entry = d.entry ∧
        (c.deletes name = true → s.files name = none)⌝,
      fun _ _ => ⌜False⌝⟩⦄ := by
  mvcgen [deleteFile] with (simp_all +zetaDelta [Device.Idle])
  grind

@[spec] theorem deleteEntry_spec (answer : Except Throwable Unit) (d : Device Key) :
    ⦃fun s => ⌜s = d⌝⦄ deleteEntry answer
    ⦃post⟨fun _ s => ⌜s = { d with entry := none }⌝, fun _ s => ⌜s = d⌝⟩⦄ := by
  mvcgen [deleteEntry] with (simp_all +zetaDelta)

/-! ### The key -/

@[spec] theorem deleteRecords_spec (c : Conditions Key) (d : Device Key) :
    ⦃fun s => ⌜s = d⌝⦄ deleteRecords c ⦃post⟨fun _ s => ⌜d.Idle s⌝, fun _ _ => ⌜False⌝⟩⦄ := by
  mvcgen [deleteRecords] with (simp_all [Device.Idle])

@[spec] theorem requireHardware_spec (c : Conditions Key) (key : Key) (d : Device Key) :
    ⦃fun s => ⌜s = d⌝⦄ requireHardware c key
    ⦃post⟨fun k s => ⌜k = key ∧ s = d ∧ c.Passes key⌝, fun _ s => ⌜d.Idle s⌝⟩⦄ := by
  mvcgen [requireHardware] with (simp_all [Device.Idle, Conditions.Passes])

@[spec] theorem generate_spec (c : Conditions Key) (strongBox : Bool) (d : Device Key) :
    ⦃fun s => ⌜s = d⌝⦄ generate c strongBox
    ⦃post⟨fun key s => ⌜d.Idle s ∧ s.entry = some (.secretKey key)⌝,
      fun _ s => ⌜d.Idle s⌝⟩⦄ := by
  mvcgen [generate] with (simp_all +zetaDelta [Device.Idle])

@[spec] theorem getKey_spec (c : Conditions Key) (d : Device Key) :
    ⦃fun s => ⌜s = d⌝⦄ getKey c
    ⦃post⟨fun key s => ⌜s = d ∧ ∀ k, key = some k → d.entry = some (.secretKey k)⌝,
      fun _ s => ⌜s = d⌝⟩⦄ := by
  mvcgen [getKey] with (simp_all)

/-- Whatever the provider does, a key that comes out of the StrongBox attempt was checked. -/
@[spec] theorem generateStrongBox_spec (c : Conditions Key) (d : Device Key) :
    ⦃fun s => ⌜s = d⌝⦄ generateStrongBox c
    ⦃post⟨fun key s => ⌜d.Idle s ∧
        ∀ k, key = some k → s.entry = some (.secretKey k) ∧ c.Passes k⌝,
      fun _ s => ⌜d.Idle s⌝⟩⦄ := by
  mvcgen [generateStrongBox] with (simp_all [Device.Idle])

/-- A key is the one in the Keystore and passed the hardware check of this call. Without `create`
the device stays as it was. -/
@[spec] theorem key_spec (c : Conditions Key) (create : Bool) (d : Device Key) :
    ⦃fun s => ⌜s = d⌝⦄ key c create
    ⦃post⟨fun key s => ⌜d.Idle s ∧ (create = false → s = d) ∧
        ∀ k, key = some k → s.entry = some (.secretKey k) ∧ c.Passes k⌝,
      fun _ s => ⌜d.Idle s⌝⟩⦄ := by
  mvcgen [key] with (simp_all [Device.Idle])

/-! ### Ciphers -/

@[spec] theorem initCipher_spec (c : Conditions Key) (key : Option Key) (d : Device Key) :
    ⦃fun s => ⌜s = d⌝⦄ initCipher c key
    ⦃post⟨fun k s => ⌜key = some k ∧ s = d⌝, fun _ s => ⌜s = d⌝⟩⦄ := by
  mvcgen [initCipher] with (simp_all)

@[spec] theorem encryptFinal_spec (gcm : Gcm Key) (c : Conditions Key) (key : Key)
    (aad plaintext : Bytes) (d : Device Key) :
    ⦃fun s => ⌜s = d⌝⦄ encryptFinal gcm c key aad plaintext
    ⦃post⟨fun ciphertext s => ⌜ciphertext = gcm.encrypt key c.iv aad plaintext ∧
        s = d.using (.encrypted key c.iv aad plaintext (gcm.encrypt key c.iv aad plaintext))⌝,
      fun _ s => ⌜s =
        d.using (.encrypted key c.iv aad plaintext (gcm.encrypt key c.iv aad plaintext))⌝⟩⦄ := by
  mvcgen [encryptFinal] with (simp_all +zetaDelta [Device.using])

@[spec] theorem decryptFinal_spec [DecidableEq Key] (gcm : Gcm Key) (c : Conditions Key)
    (key : Key) (iv aad ciphertext : Bytes) (d : Device Key) :
    ⦃fun s => ⌜s = d⌝⦄ decryptFinal gcm c key iv aad ciphertext
    ⦃post⟨fun plaintext s => ⌜s = d.using (.decrypted key iv aad ciphertext) ∧
        d.uses.any (Use.produces key iv aad ciphertext) = true ∧
        gcm.decrypt key iv aad ciphertext = some plaintext⌝,
      fun _ s => ⌜s = d.using (.decrypted key iv aad ciphertext)⌝⟩⦄ := by
  mvcgen [decryptFinal] with (simp_all +zetaDelta [Device.using])

/-! ### Files -/

@[spec] theorem writeBytes_spec (c : Conditions Key) (name : FileName) (bytes : Bytes)
    (d : Device Key) :
    ⦃fun s => ⌜s = d⌝⦄ writeBytes c name bytes
    ⦃post⟨fun _ s => ⌜s = { d with files := Function.update d.files name (some bytes) }⌝,
      fun _ s => ⌜d.Idle s⌝⟩⦄ := by
  mvcgen [writeBytes] with (simp_all +zetaDelta [Device.Idle])

@[spec] theorem renameTo_spec (c : Conditions Key) (source target : FileName) (d : Device Key) :
    ⦃fun s => ⌜s = d⌝⦄ renameTo c source target
    ⦃post⟨fun renamed s => ⌜d.Idle s ∧ s.entry = d.entry ∧
        (renamed = true → source ≠ target → s.files target = d.files source)⌝,
      fun _ _ => ⌜False⌝⟩⦄ := by
  mvcgen [renameTo] with (simp_all +zetaDelta [Device.Idle])
  grind

/-! ### The two calls -/

@[spec] theorem encryptFlag_spec (gcm : Gcm Key) (c : Conditions Key) (tier : Int) (flag : Bytes)
    (d : Device Key) :
    ⦃fun s => ⌜s = d⌝⦄ encryptFlag gcm c tier flag
    ⦃post⟨fun record s => ⌜s.flag = d.flag ∧ ∃ key, c.Passes key ∧
        s.entry = some (.secretKey key) ∧
        s.uses = d.uses ++ [Use.ofFlag gcm c tier flag key] ∧
        FlagRecord.create currentVersion tier c.iv
          (gcm.encrypt key c.iv (aadOf currentVersion tier) flag) = .ok record⌝,
      fun _ s => ⌜s.flag = d.flag ∧
        d.UsesOne c (fun key use => use = Use.ofFlag gcm c tier flag key) s⌝⟩⦄ := by
  mvcgen [encryptFlag]
    with (simp_all +zetaDelta [Device.using, Device.Idle, Use.ofFlag, Device.UsesOne])

/-- A `store` that returns has put the record of its encryption in the place of the old one; one
that throws has made this encryption or none. From the cipher on the caller's array is zeroed. -/
@[spec] theorem store_spec (gcm : Gcm Key) (c : Conditions Key) (tier : Int) (flag : Bytes)
    (d : Device Key) :
    ⦃fun s => ⌜s = d⌝⦄ store gcm c tier flag
    ⦃post⟨fun _ s => ⌜∃ key record, c.Passes key ∧ s.entry = some (.secretKey key) ∧
        s.uses = d.uses ++ [Use.ofFlag gcm c tier flag key] ∧
        FlagRecord.create currentVersion tier c.iv
          (gcm.encrypt key c.iv (aadOf currentVersion tier) flag) = .ok record ∧
        s.files (.record tier) = some record.encode ∧ s.flag = List.replicate flag.length 0⌝,
      fun _ s => ⌜d.UsesOne c (fun key use => (1 ≤ tier ∧ tier ≤ 2) ∧
          use = Use.ofFlag gcm c tier flag key) s ∧
        (1 ≤ tier ∧ tier ≤ 2 → c.getInstance = .ok () →
          s.flag = List.replicate flag.length 0)⌝⟩⦄ := by
  mvcgen [store, zeroing, requireTier] with (simp_all +zetaDelta [Device.Idle, Device.UsesOne])
  all_goals grind

/-- A record that decrypts was encrypted under the key of the Keystore, which passed the check. -/
@[spec] theorem decryptRecord_spec [DecidableEq Key] (gcm : Gcm Key) (c : Conditions Key)
    (target : FileName) (record : FlagRecord) (d : Device Key) :
    ⦃fun s => ⌜s = d⌝⦄ decryptRecord gcm c target record
    ⦃post⟨fun result s => ⌜match result with
        | some flag => ∃ key, c.Passes key ∧ d.entry = some (.secretKey key) ∧
            s = d.using (.decrypted key record.iv record.aad record.ciphertext) ∧
            d.uses.any (Use.produces key record.iv record.aad record.ciphertext) = true ∧
            gcm.decrypt key record.iv record.aad record.ciphertext = some flag
        | none => s.uses = d.uses ∧ (c.deletes target = true → s.files target = none)⌝,
      fun _ s => ⌜d.UsesOne c (fun key use => use = .decrypted key record.iv record.aad
        record.ciphertext) s⌝⟩⦄ := by
  mvcgen [decryptRecord] with (simp_all [Device.Idle, Device.UsesOne, Device.using])
  all_goals grind

/-- A `read` that returns a flag has decrypted the record of this tier; one that returns nothing
leaves no file, as far as it can delete it. -/
@[spec] theorem read_spec [DecidableEq Key] (gcm : Gcm Key) (c : Conditions Key) (tier : Int)
    (d : Device Key) :
    ⦃fun s => ⌜s = d⌝⦄ read gcm c tier
    ⦃post⟨fun result s => ⌜match result with
        | some flag => ∃ key bytes record, d.files (.record tier) = some bytes ∧
            FlagRecord.decode bytes = .ok (some record) ∧ record.tier = tier ∧
            c.Passes key ∧ d.entry = some (.secretKey key) ∧
            s = d.using (.decrypted key record.iv record.aad record.ciphertext) ∧
            d.uses.any (Use.produces key record.iv record.aad record.ciphertext) = true ∧
            gcm.decrypt key record.iv record.aad record.ciphertext = some flag
        | none => (c.deletes (.record tier) = true → s.files (.record tier) = none) ∧
            d.UsesOne c (fun key use => ∃ iv aad ciphertext,
              use = .decrypted key iv aad ciphertext) s⌝,
      fun _ s => ⌜d.UsesOne c (fun key use => ∃ iv aad ciphertext,
        use = .decrypted key iv aad ciphertext) s⌝⟩⦄ := by
  mvcgen [read, readRecord, requireTier] with (simp_all [Device.Idle, Device.UsesOne])
  all_goals grind

end FlagStore

end UncrackableL5
