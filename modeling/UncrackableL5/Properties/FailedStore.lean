import UncrackableL5.Properties.FlagAuthenticity
import UncrackableL5.Properties.FlagCalls

/-!
# A store that fails

Whatever fails in a `store`, the records stay as they were: the new one is complete before the
rename puts it in place. The exception is a key that the hardware check refuses. Once its Keystore
entry is deleted, the check deletes what was stored under it, as far as the files can be deleted.

## Main results

- `FlagStore.key_files`: the key lookup changes files only where it refuses a key.
- `failed_store`: what a `store` leaves, whether it returns or throws.
-/
namespace UncrackableL5

open Std.Do
open FlagRecord (aadOf currentVersion)

set_option mvcgen.warning false

variable {Key : Type}

/-! ### Refusal -/

/-- The exceptions that end an attempt with StrongBox, but not the call. -/
def OfProvider (e : Throwable) : Prop := e = .strongBoxUnavailable ∨ e = .provider

def ProviderFails {α : Type} (answer : Except Throwable α) : Prop :=
  ∃ e, answer = .error e ∧ OfProvider e

namespace Conditions

/-- The hardware check finds that this key is not in hardware. -/
def NotHardware (c : Conditions Key) (key : Key) : Prop :=
  ∃ info, c.getKeySpec key = .ok info ∧ FlagStore.isHardware c.sdkInt info = false

/-- The hardware check refuses this key and deletes its entry. -/
def Refuses (c : Conditions Key) (key : Key) : Prop :=
  c.NotHardware key ∧ c.deleteRefused key = .ok ()

/-- The hardware check of this key ends in a failure of the provider. -/
def CheckFails (c : Conditions Key) (key : Key) : Prop :=
  ProviderFails (c.getKeySpec key) ∨ c.NotHardware key ∧ ProviderFails (c.deleteRefused key)

/-- The provider fails in the attempt with StrongBox. -/
def StrongBoxFails (c : Conditions Key) : Prop :=
  ProviderFails (c.generateKey true) ∨ ∃ key, c.generateKey true = .ok key ∧ c.CheckFails key

/-- The hardware check of a call comes to this key: the stored one, else a new one. -/
def Checks (c : Conditions Key) (entry : Option (KeyEntry Key)) (key : Key) : Prop :=
  entry = some (.secretKey key) ∨
    (∀ stored, entry ≠ some (.secretKey stored)) ∧
      (c.hasStrongBox = true ∧ c.generateKey true = .ok key ∨
        (c.hasStrongBox = true → c.StrongBoxFails) ∧ c.generateKey false = .ok key)

/-- The key lookup comes to a key that is refused. -/
def LookupRefuses (c : Conditions Key) (entry : Option (KeyEntry Key)) : Prop :=
  c.load = .ok () ∧ c.getKey = .ok () ∧ ∃ key, c.Checks entry key ∧ c.Refuses key

/-- So does that of a `store`, which comes after the checks of the tier and the cipher. -/
def StoreRefuses (c : Conditions Key) (entry : Option (KeyEntry Key)) (tier : Int) : Prop :=
  (1 ≤ tier ∧ tier ≤ 2) ∧ c.getInstance = .ok () ∧ c.LookupRefuses entry

variable {c : Conditions Key} {entry : Option (KeyEntry Key)} {key : Key}

theorem Passes.not_refuses (passes : c.Passes key) : ¬c.Refuses key := by
  obtain ⟨info, spec, hardware⟩ := passes
  rintro ⟨⟨other, spec', software⟩, -⟩
  obtain rfl := Except.ok.inj (spec.symm.trans spec')
  simp [hardware] at software

theorem Passes.not_checkFails (passes : c.Passes key) : ¬c.CheckFails key := by
  obtain ⟨info, spec, hardware⟩ := passes
  rintro (⟨e, failed, -⟩ | ⟨⟨other, spec', software⟩, -⟩)
  · cases spec.symm.trans failed
  · obtain rfl := Except.ok.inj (spec.symm.trans spec')
    simp [hardware] at software

theorem CheckFails.not_refuses (fails : c.CheckFails key) : ¬c.Refuses key := by
  rintro ⟨⟨info, spec, software⟩, deleted⟩
  rcases fails with ⟨e, failed, -⟩ | ⟨-, e, failed, -⟩
  · cases spec.symm.trans failed
  · cases deleted.symm.trans failed

/-- A StrongBox key that the call goes on without was not refused. -/
theorem StrongBoxFails.not_refuses (fails : c.StrongBoxFails)
    (generated : c.generateKey true = .ok key) : ¬c.Refuses key := by
  rcases fails with ⟨e, failed, -⟩ | ⟨other, generated', fails⟩
  · cases generated.symm.trans failed
  · obtain rfl := Except.ok.inj (generated.symm.trans generated')
    exact fails.not_refuses

theorem lookupRefuses_stored (load : c.load = .ok ()) (getKey : c.getKey = .ok ())
    (found : entry = some (.secretKey key)) : c.LookupRefuses entry ↔ c.Refuses key := by
  constructor
  · rintro ⟨-, -, other, checked | ⟨absent, -⟩, refused⟩
    · rw [found] at checked
      cases checked
      exact refused
    · exact absurd found (absent key)
  · intro refused
    exact ⟨load, getKey, key, .inl found, refused⟩

/-- Where StrongBox does not fail, its key decides. -/
theorem lookupRefuses_strongBox (load : c.load = .ok ()) (getKey : c.getKey = .ok ())
    (absent : ∀ stored, entry ≠ some (.secretKey stored)) (present : c.hasStrongBox = true)
    (works : ¬c.StrongBoxFails) :
    c.LookupRefuses entry ↔ ∃ key, c.generateKey true = .ok key ∧ c.Refuses key := by
  constructor
  · rintro ⟨-, -, key, found | ⟨-, ⟨-, generated⟩ | ⟨fails, -⟩⟩, refused⟩
    · exact absurd found (absent key)
    · exact ⟨key, generated, refused⟩
    · exact absurd (fails present) works
  · rintro ⟨key, generated, refused⟩
    exact ⟨load, getKey, key, .inr ⟨absent, .inl ⟨present, generated⟩⟩, refused⟩

theorem lookupRefuses_plain (load : c.load = .ok ()) (getKey : c.getKey = .ok ())
    (absent : ∀ stored, entry ≠ some (.secretKey stored))
    (fails : c.hasStrongBox = true → c.StrongBoxFails) :
    c.LookupRefuses entry ↔ ∃ key, c.generateKey false = .ok key ∧ c.Refuses key := by
  constructor
  · rintro ⟨-, -, key, found | ⟨-, ⟨present, generated⟩ | ⟨-, generated⟩⟩, refused⟩
    · exact absurd found (absent key)
    · exact absurd refused ((fails present).not_refuses generated)
    · exact ⟨key, generated, refused⟩
  · rintro ⟨key, generated, refused⟩
    exact ⟨load, getKey, key, .inr ⟨absent, .inr ⟨fails, generated⟩⟩, refused⟩

end Conditions

/-! ### Deleted files -/

/-- The files after an attempt to delete these. -/
def Conditions.without (c : Conditions Key) (names : List FileName)
    (files : FileName → Option Bytes) (name : FileName) : Option Bytes :=
  if name ∈ names ∧ c.deletes name = true then none else files name

theorem Conditions.without_without (c : Conditions Key) (names more : List FileName)
    (files : FileName → Option Bytes) :
    c.without more (c.without names files) = c.without (names ++ more) files := by
  funext name
  simp only [Conditions.without, List.mem_append]
  split_ifs <;> simp_all

/-- What the hardware check deletes with a key. -/
def storedNames : List FileName := [.record 1, .temp 1, .record 2, .temp 2]

namespace FlagStore

theorem deleteFile_files (c : Conditions Key) (name : FileName) (d : Device Key) :
    ⦃fun s => ⌜s = d⌝⦄ deleteFile c name
    ⦃post⟨fun _ s => ⌜s.files = c.without [name] d.files⌝, fun _ _ => ⌜False⌝⟩⦄ := by
  mvcgen [deleteFile, -deleteFile_spec] with (simp_all +zetaDelta)
  funext other
  by_cases same : other = name <;> by_cases gone : c.deletes name = true <;>
    simp_all [Conditions.without]

theorem deleteRecords_files (c : Conditions Key) (d : Device Key) :
    ⦃fun s => ⌜s = d⌝⦄ deleteRecords c
    ⦃post⟨fun _ s => ⌜s.files = c.without storedNames d.files⌝, fun _ _ => ⌜False⌝⟩⦄ := by
  mvcgen [deleteRecords, -deleteRecords_spec, -deleteFile_spec, deleteFile_files]
    with (simp_all [Conditions.without_without, storedNames])

theorem deleteEntry_answer (answer : Except Throwable Unit) (d : Device Key) :
    ⦃fun s => ⌜s = d⌝⦄ deleteEntry answer
    ⦃post⟨fun _ s => ⌜answer = .ok () ∧ s.files = d.files⌝,
      fun e s => ⌜answer = .error e ∧ s.files = d.files⌝⟩⦄ := by
  mvcgen [deleteEntry, -deleteEntry_spec] with (simp_all +zetaDelta)

/-- A refused key takes the files with it; where the check ends otherwise, they stay. -/
theorem requireHardware_files (c : Conditions Key) (key : Key) (d : Device Key) :
    ⦃fun s => ⌜s = d⌝⦄ requireHardware c key
    ⦃post⟨fun k s => ⌜k = key ∧ s.files = d.files ∧ c.Passes key⌝,
      fun e s => ⌜(c.Refuses key ∧ s.files = c.without storedNames d.files ∨
          ¬c.Refuses key ∧ s.files = d.files) ∧ (c.CheckFails key ↔ OfProvider e)⌝⟩⦄ := by
  mvcgen [requireHardware, -requireHardware_spec, -deleteRecords_spec, deleteRecords_files,
      -deleteEntry_spec, deleteEntry_answer]
    with (simp_all +zetaDelta [Conditions.NotHardware, Conditions.Refuses, Conditions.Passes,
      Conditions.CheckFails, ProviderFails, OfProvider])

theorem generate_files (c : Conditions Key) (strongBox : Bool) (d : Device Key) :
    ⦃fun s => ⌜s = d⌝⦄ generate c strongBox
    ⦃post⟨fun key s => ⌜c.generateKey strongBox = .ok key ∧ s.files = d.files⌝,
      fun e s => ⌜c.generateKey strongBox = .error e ∧ s.files = d.files⌝⟩⦄ := by
  mvcgen [generate, -generate_spec] with (simp_all +zetaDelta)

/-- The attempt with StrongBox ends the call, with or without a refusal, or it comes to a key that
passes, or it fails. -/
theorem generateStrongBox_files (c : Conditions Key) (d : Device Key) :
    ⦃fun s => ⌜s = d⌝⦄ generateStrongBox c
    ⦃post⟨fun key s => ⌜s.files = d.files ∧ match key with
        | some _ => ¬c.StrongBoxFails ∧ ¬∃ key, c.generateKey true = .ok key ∧ c.Refuses key
        | none => c.StrongBoxFails⌝,
      fun _ s => ⌜¬c.StrongBoxFails ∧
        ((∃ key, c.generateKey true = .ok key ∧ c.Refuses key) ∧
            s.files = c.without storedNames d.files ∨
          (¬∃ key, c.generateKey true = .ok key ∧ c.Refuses key) ∧ s.files = d.files)⌝⟩⦄ := by
  mvcgen [generateStrongBox, -generateStrongBox_spec, -generate_spec, generate_files,
      -requireHardware_spec, requireHardware_files, -deleteEntry_spec, deleteEntry_answer]
  all_goals
    try simp only [Effects.restore_save] at *
    grind [OfProvider, ProviderFails, Conditions.StrongBoxFails, Conditions.CheckFails.not_refuses,
      Conditions.Passes.not_refuses, Conditions.Passes.not_checkFails]

/-- The key found in the Keystore decides whether the lookup refuses one. -/
theorem getKey_files (c : Conditions Key) (d : Device Key) :
    ⦃fun s => ⌜s = d⌝⦄ getKey c
    ⦃post⟨fun key s => ⌜s = d ∧ c.getKey = .ok () ∧ match key with
        | some key => c.load = .ok () → (c.LookupRefuses d.entry ↔ c.Refuses key)
        | none => ∀ key, d.entry ≠ some (.secretKey key)⌝,
      fun e s => ⌜s = d ∧ c.getKey = .error e⌝⟩⦄ := by
  mvcgen [getKey, -getKey_spec] with (simp_all)
  case vc1 => grind [Conditions.lookupRefuses_stored]

/-- The key lookup of a `store` changes files only where it refuses a key. -/
theorem key_files (c : Conditions Key) (d : Device Key) :
    ⦃fun s => ⌜s = d⌝⦄ key c true
    ⦃post⟨fun _ s => ⌜s.files = d.files ∧ ¬c.LookupRefuses d.entry⌝,
      fun _ s => ⌜c.LookupRefuses d.entry ∧ s.files = c.without storedNames d.files ∨
        ¬c.LookupRefuses d.entry ∧ s.files = d.files⌝⟩⦄ := by
  mvcgen [key, -key_spec, -getKey_spec, getKey_files, -generate_spec, generate_files,
      -requireHardware_spec, requireHardware_files, -generateStrongBox_spec,
      generateStrongBox_files]
  all_goals
    grind [Conditions.lookupRefuses_strongBox, Conditions.lookupRefuses_plain,
      Conditions.Passes.not_refuses, Conditions.LookupRefuses]

theorem encryptFlag_files (gcm : Gcm Key) (c : Conditions Key) (tier : Int) (flag : Bytes)
    (d : Device Key) :
    ⦃fun s => ⌜s = d⌝⦄ encryptFlag gcm c tier flag
    ⦃post⟨fun _ s => ⌜s.files = d.files ∧ ¬c.LookupRefuses d.entry⌝,
      fun _ s => ⌜c.LookupRefuses d.entry ∧ s.files = c.without storedNames d.files ∨
        ¬c.LookupRefuses d.entry ∧ s.files = d.files⌝⟩⦄ := by
  mvcgen [encryptFlag, -encryptFlag_spec, -key_spec, key_files]
    with (simp_all +zetaDelta [Device.using])

theorem writeBytes_files (c : Conditions Key) (name : FileName) (bytes : Bytes) (d : Device Key) :
    ⦃fun s => ⌜s = d⌝⦄ writeBytes c name bytes
    ⦃post⟨fun _ s => ⌜∀ other, other ≠ name → s.files other = d.files other⌝,
      fun _ s => ⌜∀ other, other ≠ name → s.files other = d.files other⌝⟩⦄ := by
  mvcgen [writeBytes, -writeBytes_spec] with (simp_all +zetaDelta [Function.update])

theorem renameTo_files (c : Conditions Key) (source target : FileName) (d : Device Key) :
    ⦃fun s => ⌜s = d⌝⦄ renameTo c source target
    ⦃post⟨fun renamed s => ⌜∀ other, other ≠ source → (renamed = true → other ≠ target) →
        s.files other = d.files other⌝, fun _ _ => ⌜False⌝⟩⦄ := by
  mvcgen [renameTo, -renameTo_spec] with (simp_all +zetaDelta [Function.update])

theorem store_files (gcm : Gcm Key) (c : Conditions Key) (tier : Int) (flag : Bytes)
    (d : Device Key) :
    ⦃fun s => ⌜s = d⌝⦄ store gcm c tier flag
    ⦃post⟨fun _ s => ⌜¬c.StoreRefuses d.entry tier ∧
        ∀ name, name ≠ .record tier → name ≠ .temp tier → s.files name = d.files name⌝,
      fun _ s => ⌜c.StoreRefuses d.entry tier ∧ s.files = c.without storedNames d.files ∨
        ¬c.StoreRefuses d.entry tier ∧
          ∀ name, name ≠ .temp tier → s.files name = d.files name⌝⟩⦄ := by
  mvcgen [store, zeroing, requireTier, -store_spec, -encryptFlag_spec, encryptFlag_files,
    -writeBytes_spec, writeBytes_files, -renameTo_spec, renameTo_files, -deleteFile_spec,
    deleteFile_files]
  all_goals
    simp_all +zetaDelta [Conditions.StoreRefuses, Conditions.without]
  all_goals grind

end FlagStore

/-- For every content of the files, tier and flag, and whatever the platform answers: a `store` that
returns has put its complete new record in the place of the old one and changed no other record.
One that throws has changed no record, unless it came to a key that it refused, and deleted the
entry of: then all records and temporary files that can be deleted are gone. -/
theorem failed_store (gcm : Gcm Key) (c : Conditions Key) (tier : Int) (flag : Bytes)
    (d : Device Key) :
    match FlagStore.store gcm c tier flag d with
    | .ok _ t => ¬c.StoreRefuses d.entry tier ∧
        (∃ key record, FlagRecord.create currentVersion tier c.iv
            (gcm.encrypt key c.iv (aadOf currentVersion tier) flag) = .ok record ∧
          t.files (.record tier) = some record.encode) ∧
        ∀ other, other ≠ tier → t.files (.record other) = d.files (.record other)
    | .error _ t =>
        (c.StoreRefuses d.entry tier ∧ t.files = c.without storedNames d.files) ∨
          (¬c.StoreRefuses d.entry tier ∧
            ∀ other, t.files (.record other) = d.files (.record other)) := by
  have written := Effects.outcome (FlagStore.store_spec gcm c tier flag d)
  have files := Effects.outcome (FlagStore.store_files gcm c tier flag d)
  cases result : FlagStore.store gcm c tier flag d with
  | ok returned t =>
    rw [result] at written files
    obtain ⟨key, record, -, -, -, created, present, -⟩ := written
    obtain ⟨unrefused, others⟩ := files
    refine ⟨unrefused, ⟨key, record, created, present⟩, fun other differs => ?_⟩
    exact others _ (by simpa using differs) (by simp)
  | error thrown t =>
    rw [result] at files
    rcases files with refused | ⟨unrefused, kept⟩
    · exact .inl refused
    · exact .inr ⟨unrefused, fun other => kept _ (by simp)⟩

namespace Sample

/-- The key is in software, and its entry cannot be deleted. -/
def refusing : Conditions Nat :=
  { conditions with
    getKeySpec := fun _ => .ok { securityLevel := 0, isInsideSecureHardware := false }
    deleteRefused := fun _ => .error (.generalSecurity "KeyStoreException") }

end Sample

/-- A refused key whose entry stays leaves the records. -/
theorem failed_store_entry_kept :
    Sample.refusing.Checks (some (.secretKey 0)) 0 ∧ Sample.refusing.NotHardware 0 ∧
      ∃ e t, FlagStore.store Sample.gcm Sample.refusing 1 Sample.storedFlag
          (.initial (fun name => if name = .record 1 then some [1] else none)
            (some (.secretKey 0))) = .error e t ∧
        t.files (.record 1) = some [1] :=
  ⟨.inl rfl, ⟨_, rfl, rfl⟩, _, _, rfl, rfl⟩

end UncrackableL5
