import UncrackableL5.Properties.RevokedSerials
import UncrackableL5.Properties.RefreshSteps

/-!
# Freshness of the revocation snapshot

The invariant ties the row, the cache and the downloads together: the row is what the refresh that
wrote it last downloaded, and the cache is what the row holds. A refresh whose list has the stored
digest only moves the expiry, so its own download describes the row as well.

## Main results

- `Object.Stepped.coherent`: one event keeps the invariant.
- `revocations_fresh`: after any run a list is answered only from a genuine download that has not
  expired, and a refresh that has not reached its SQL section changed nothing.
-/
namespace UncrackableL5

open Transition

/-! ### The pieces of a refresh -/

private theorem readChunks_eq_ok {max total : Nat} {chunks : List Bytes} {out : Bytes}
    (read : readChunks max total chunks = .ok out) (below : total ≤ max) :
    out = chunks.flatten ∧ total + out.length ≤ max := by
  induction chunks generalizing total out with
  | nil =>
    cases read
    exact ⟨rfl, by simpa using below⟩
  | cons value rest ih =>
    rw [readChunks, guard_eq_ok_iff, bind_ok_iff] at read
    obtain ⟨room, more, read, joined⟩ := read
    obtain ⟨rfl, bound⟩ := ih read (by omega)
    cases joined
    exact ⟨rfl, by simp only [List.length_append]; omega⟩

private theorem readChunks_of_le {max total : Nat} {chunks : List Bytes}
    (fits : total + chunks.flatten.length ≤ max) :
    readChunks max total chunks = .ok chunks.flatten := by
  induction chunks generalizing total with
  | nil => rfl
  | cons value rest ih =>
    simp only [List.flatten_cons, List.length_append] at fits
    rw [readChunks, if_neg (by omega), ih (by omega), ok_bind, List.flatten_cons]

theorem boundedText_of_le {max : Nat} {chunks : List Bytes} (fits : chunks.flatten.length ≤ max) :
    boundedText (some chunks) max = .ok (utf8DecodeLossy chunks.flatten) := by
  rw [boundedText, readChunks_of_le (by omega), ok_bind]

/-- A feed body within the size bound that parses to the sorted serials. -/
structure Genuine (engine : Engine) (d : Download) : Prop where
  status : d.response.status = 200
  bounded : d.body.flatten.length ≤ maxFeedBytes
  parsed : ∃ serials, parseFeed engine (utf8DecodeLossy d.body.flatten) = .ok serials ∧
    d.serials = sortStrings serials

theorem Genuine.numerals {engine : Engine} {d : Download} (genuine : Genuine engine d) :
    ∀ s ∈ d.serials, IsNumeral s := by
  obtain ⟨serials, parsed, sorted⟩ := genuine.parsed
  exact sorted ▸ parseFeed_numerals parsed

private theorem checkResponse_eq_ok {engine : Engine} {response : Response}
    (passes : checkResponse engine response = .ok ()) : response.status = 200 := by
  rw [checkResponse, guard_eq_ok_iff, not_not] at passes
  exact passes.1

/-- A body that gets as far as the digest. -/
theorem readFeed_eq_ok {engine : Engine} {response : Response}
    {body : Option (List Bytes)} {nowSeconds clock : Number} {serials : List JsString}
    {expiresAt : Number}
    (read : readFeed engine response body nowSeconds clock = .ok (serials, expiresAt)) :
    (body.getD []).flatten.length ≤ maxFeedBytes ∧
      (∃ parsed, parseFeed engine (utf8DecodeLossy (body.getD []).flatten) = .ok parsed ∧
        serials = sortStrings parsed) ∧
      expiresAt = snapshotExpiry response nowSeconds := by
  rw [readFeed, bind_ok_iff] at read
  obtain ⟨text, bounded, read⟩ := read
  rw [guard_eq_ok_iff, bind_ok_iff] at read
  obtain ⟨-, parsed, feed, built⟩ := read
  cases built
  cases body with
  | none => cases bounded
  | some chunks =>
    rw [boundedText, bind_ok_iff] at bounded
    obtain ⟨octets, chunked, decoded⟩ := bounded
    obtain ⟨rfl, bound⟩ := readChunks_eq_ok chunked (Nat.zero_le _)
    cases decoded
    exact ⟨by simpa using bound, ⟨parsed, feed, rfl⟩, rfl⟩

/-- A body that fits, parses and is read before it expires gets that far. -/
theorem readFeed_accepts {engine : Engine} {response : Response} {body : Option (List Bytes)}
    {nowSeconds clock : Number} {text : JsString} {serials : List JsString}
    (bounded : boundedText body maxFeedBytes = .ok text)
    (parsed : parseFeed engine text = .ok serials)
    (live : ¬clock ≥ snapshotExpiry response nowSeconds) :
    readFeed engine response body nowSeconds clock =
      .ok (sortStrings serials, snapshotExpiry response nowSeconds) := by
  rw [readFeed, bounded, ok_bind, if_neg live, parsed, ok_bind]

/-! ### Digests -/

/-- The text that the digest of a download is taken of. -/
def Download.stored (d : Download) : Bytes := utf8Encode (joinSerials d.serials)

/-- No two lists downloaded in the run collide. -/
def CollisionFree (engine : Engine) (downloads : List Download) : Prop :=
  ∀ a ∈ downloads, ∀ b ∈ downloads, engine.sha256 a.stored = engine.sha256 b.stored →
    a.stored = b.stored

instance (engine : Engine) (downloads : List Download) :
    Decidable (CollisionFree engine downloads) :=
  inferInstanceAs (Decidable (∀ a ∈ downloads, ∀ b ∈ downloads, _ → _))

/-- Equal digests of genuine downloads mean equal lists. -/
private theorem serials_eq_of_digest {engine : Engine} {downloads : List Download}
    (distinct : CollisionFree engine downloads) {a b : Download} (listedA : a ∈ downloads)
    (listedB : b ∈ downloads) (genuineA : Genuine engine a) (genuineB : Genuine engine b)
    (same : digestSerials engine (joinSerials a.serials) =
      digestSerials engine (joinSerials b.serials)) : a.serials = b.serials := by
  have octets := distinct a listedA b listedB (hex_injective same)
  have asciiA := joinSerials_ascii a.serials genuineA.numerals
  have asciiB := joinSerials_ascii b.serials genuineB.numerals
  simp only [Download.stored, utf8Encode_ascii _ asciiA, utf8Encode_ascii _ asciiB] at octets
  have text := congrArg fromCharCodes octets
  rw [fromCharCodes_ascii asciiA, fromCharCodes_ascii asciiB] at text
  rw [← storedSerials_joinSerials a.serials genuineA.numerals, text,
    storedSerials_joinSerials b.serials genuineB.numerals]

/-! ### The invariant -/

/-- What is known of a refresh between two awaits. -/
def Refresh.Sound (engine : Engine) (downloads : List Download) (i : Nat) (r : Refresh) : Prop :=
  match r.phase with
  | .reading response => checkResponse engine response = .ok ()
  | .digesting serials expiresAt => ∃ d ∈ downloads, d.refresh = i ∧ d.serials = serials ∧
      expiresAt = snapshotExpiry d.response r.nowSeconds
  | _ => True

/-- `d` is what the refresh `r` downloaded that wrote the row. -/
structure Written (engine : Engine) (o : Object) (row : SnapshotRow) (d : Download)
    (r : Refresh) : Prop where
  downloaded : d ∈ o.downloads
  writer : o.writer = some d.refresh
  running : o.refreshes[d.refresh]? = some r
  wrote : r.wrote = true
  row_eq : row = snapshotRow engine d.serials (snapshotExpiry d.response r.nowSeconds) r.nowSeconds
  number : row.expiresAt ≠ .nan

/-- The cache holds what the row holds. -/
def CacheAgrees (store : SnapshotStore) : Prop :=
  ∀ cache, store.cache = some cache → ∃ row, store.row = some row ∧
    cache = { digest := row.digest, serials := storedSerials row.serials }

/-- An answer is the list of a fresh row, or null when there is none. -/
inductive Answer (store : SnapshotStore) (nowSeconds : Int) : RevocationView → Prop where
  | fresh (row : SnapshotRow) (present : store.row = some row)
      (fresh : ¬(nowSeconds : Number) ≥ row.expiresAt) :
      Answer store nowSeconds
        { serials := some (storedSerials row.serials), expiresAt := row.expiresAt }
  | stale (expiresAt : Number)
      (stale : ∀ row, store.row = some row → (nowSeconds : Number) ≥ row.expiresAt) :
      Answer store nowSeconds { serials := none, expiresAt := expiresAt }

structure Coherent (engine : Engine) (o : Object) : Prop where
  genuine : ∀ d ∈ o.downloads, Genuine engine d
  sound : ∀ i r, o.refreshes[i]? = some r → Refresh.Sound engine o.downloads i r
  written : ∀ row, o.store.row = some row → ∃ d r, Written engine o row d r
  cached : CacheAgrees o.store
  answered : ∀ nowSeconds view, o.answer = some (nowSeconds, view) → Answer o.store nowSeconds view

theorem Object.initial_coherent (engine : Engine) : Coherent engine .initial where
  genuine := by simp [Object.initial]
  sound := by simp [Object.initial]
  written := by simp [Object.initial]
  cached := by simp [CacheAgrees, Object.initial]
  answered := by simp [Object.initial]

/-! ### Reading the store -/

/-- Reading keeps the row, refills the cache from it and answers accordingly. -/
private structure Reads (store : SnapshotStore) (nowSeconds : Int)
    (outcome : RevocationView × SnapshotStore) : Prop where
  row_eq : outcome.2.row = store.row
  agrees : CacheAgrees outcome.2
  answer : Answer outcome.2 nowSeconds outcome.1

/-- Through the cache or from the row, the view is of the row. -/
theorem viewRow_eq {store : SnapshotStore} {row : SnapshotRow} (present : store.row = some row)
    (agrees : CacheAgrees store) :
    viewRow store row =
      ({ serials := some (storedSerials row.serials), expiresAt := row.expiresAt },
        { store with
          cache := some { digest := row.digest, serials := storedSerials row.serials } }) := by
  simp only [viewRow]
  split
  next cache cached =>
    obtain ⟨_, held, rfl⟩ := agrees cache cached
    cases present.symm.trans held
    simp
  next => rfl

private theorem viewRow_reads {store : SnapshotStore} {row : SnapshotRow} {nowSeconds : Int}
    (present : store.row = some row) (agrees : CacheAgrees store)
    (fresh : ¬(nowSeconds : Number) ≥ row.expiresAt) :
    Reads store nowSeconds (viewRow store row) := by
  rw [viewRow_eq present agrees]
  refine ⟨rfl, ?_, .fresh row present fresh⟩
  intro cache cached
  cases cached
  exact ⟨row, present, rfl⟩

private theorem revocationsStart_reads {store : SnapshotStore} {nowSeconds : Int}
    {outcome : RevocationView × SnapshotStore} (agrees : CacheAgrees store)
    (answers : revocationsStart store nowSeconds = some outcome) :
    Reads store nowSeconds outcome := by
  simp only [revocationsStart] at answers
  split at answers
  next => cases answers
  next row present =>
    split at answers
    next => cases answers
    next fresh =>
      cases answers
      exact viewRow_reads present agrees fresh

private theorem revocationsEnd_reads {store : SnapshotStore} (nowSeconds : Int)
    (agrees : CacheAgrees store) : Reads store nowSeconds (revocationsEnd store nowSeconds) := by
  simp only [revocationsEnd]
  split
  next absent => exact ⟨rfl, agrees, .stale _ fun row present => by simp [absent] at present⟩
  next row present =>
    split
    next stale =>
      refine ⟨rfl, agrees, .stale _ fun other held => ?_⟩
      cases present.symm.trans held
      exact stale
    next fresh => exact viewRow_reads present agrees fresh

/-! ### One event -/

namespace Object

variable {engine : Engine} {o t : Object} {event : Event}

private theorem Stepped.genuine (taken : Stepped engine o event t) (coherent : Coherent engine o) :
    ∀ d ∈ t.downloads, Genuine engine d := by
  cases taken with
  | read i r response body clock serials expiresAt running phase parsed =>
    intro d member
    rcases List.mem_append.mp member with old | new
    · exact coherent.genuine d old
    · obtain rfl := List.mem_singleton.mp new
      -- Its response was checked when the refresh began to read the body.
      have passes : checkResponse engine response = .ok () := by
        have := coherent.sound i r running
        rwa [Refresh.Sound, phase] at this
      obtain ⟨bound, feed, -⟩ := readFeed_eq_ok parsed
      exact ⟨checkResponse_eq_ok passes, bound, feed⟩
  | _ => exact coherent.genuine

private theorem sound_mono {downloads more : List Download} (subset : downloads ⊆ more) {i : Nat}
    {r : Refresh} (sound : Refresh.Sound engine downloads i r) :
    Refresh.Sound engine more i r := by
  revert sound
  simp only [Refresh.Sound]
  split
  · exact id
  · rintro ⟨d, member, rest⟩
    exact ⟨d, subset member, rest⟩
  · exact id

private theorem Stepped.sound (taken : Stepped engine o event t) (coherent : Coherent engine o) :
    ∀ i r, t.refreshes[i]? = some r → Refresh.Sound engine t.downloads i r := by
  intro j x found
  have old : o.refreshes[j]? = some x → Refresh.Sound engine t.downloads j x := fun present =>
    sound_mono taken.downloads_subset (coherent.sound j x present)
  cases taken with
  | answered => exact old found
  | called | alarm =>
    rcases lookup_append found with rfl | present
    · trivial
    · exact old present
  | checked i r response running phase passes =>
    rcases lookup_set found with ⟨rfl, rfl⟩ | ⟨-, present⟩
    · exact passes
    · exact old present
  | read i r response body clock serials expiresAt running phase parsed =>
    rcases lookup_set found with ⟨rfl, rfl⟩ | ⟨-, present⟩
    · exact ⟨_, List.mem_append_right _ (List.mem_singleton_self _), rfl, rfl,
        (readFeed_eq_ok parsed).2.2⟩
    · exact old present
  | wrote | resumed =>
    rcases lookup_set found with ⟨rfl, rfl⟩ | ⟨-, present⟩
    · trivial
    · exact old present
  | moved _ i r phase running idle =>
    rcases lookup_set found with ⟨rfl, rfl⟩ | ⟨-, present⟩
    · rcases idle with rfl | rfl | rfl <;> trivial
    · exact old present
  | restarted =>
    obtain ⟨r, -, rfl⟩ := Option.map_eq_some_iff.mp (List.getElem?_map.symm.trans found)
    trivial

/-- What describes the row goes on to describe it. -/
private theorem written_mono (taken : Stepped engine o event t)
    (row : t.store.row = o.store.row) (writer : t.writer = o.writer)
    (coherent : Coherent engine o) :
    ∀ row, t.store.row = some row → ∃ d r, Written engine t row d r := by
  intro held present
  obtain ⟨d, r, written⟩ := coherent.written held (row ▸ present)
  obtain ⟨r', running, time, wrote⟩ := taken.keeps _ _ written.running
  exact ⟨d, r', {
    downloaded := taken.downloads_subset written.downloaded
    writer := writer.trans written.writer
    running := running
    wrote := wrote written.wrote
    row_eq := time ▸ written.row_eq
    number := written.number }⟩

/-- The SQL section leaves a row that its own download describes. -/
private theorem written_write (coherent : Coherent engine o)
    (distinct : CollisionFree engine o.downloads) {d : Download} {r : Refresh}
    {store : SnapshotStore} (downloaded : d ∈ o.downloads)
    (written : writeSnapshot engine o.store d.serials (snapshotExpiry d.response r.nowSeconds)
      r.nowSeconds = .ok store) :
    ∃ row, store.row = some row ∧ CacheAgrees store ∧ row.expiresAt ≠ .nan ∧
      row = snapshotRow engine d.serials (snapshotExpiry d.response r.nowSeconds) r.nowSeconds := by
  obtain ⟨number, ⟨current, held, same, rfl⟩ | rfl⟩ := writeSnapshot_eq_ok written
  · -- the stored list was downloaded before, and has the same digest
    obtain ⟨old, _, describes⟩ := coherent.written current held
    have equal : old.serials = d.serials := by
      rw [describes.row_eq] at same
      exact serials_eq_of_digest distinct describes.downloaded downloaded
        (coherent.genuine _ describes.downloaded) (coherent.genuine _ downloaded) same
    refine ⟨_, rfl, ?_, number, ?_⟩
    · intro cache cached
      obtain ⟨row, present, agrees⟩ := coherent.cached cache cached
      cases held.symm.trans present
      exact ⟨_, rfl, agrees⟩
    · rw [describes.row_eq, equal]
      rfl
  -- Row and cache are written together.
  · refine ⟨_, rfl, ?_, number, rfl⟩
    intro cache cached
    cases cached
    refine ⟨_, rfl, ?_⟩
    rw [snapshotRow, storedSerials_joinSerials _ (coherent.genuine d downloaded).numerals]

private theorem Stepped.written (taken : Stepped engine o event t) (coherent : Coherent engine o)
    (distinct : CollisionFree engine o.downloads) :
    (∀ row, t.store.row = some row → ∃ d r, Written engine t row d r) ∧ CacheAgrees t.store := by
  have kept := written_mono taken
  cases taken with
  | wrote i r serials expiresAt store running phase section_ =>
    obtain ⟨d, downloaded, rfl, rfl, rfl⟩ :
        ∃ d ∈ o.downloads, d.refresh = i ∧ d.serials = serials ∧
          expiresAt = snapshotExpiry d.response r.nowSeconds := by
      have := coherent.sound i r running
      rwa [Refresh.Sound, phase] at this
    -- The download that this refresh is digesting now describes the row.
    have bound := (List.getElem?_eq_some_iff.mp running).1
    obtain ⟨row, held, agrees, number, row_eq⟩ :=
      written_write coherent distinct downloaded section_
    refine ⟨fun other present => ?_, agrees⟩
    cases held.symm.trans present
    exact ⟨d, _, {
      downloaded := downloaded
      writer := rfl
      running := List.getElem?_set_self bound
      wrote := rfl
      row_eq := row_eq
      number := number }⟩
  | answered nowSeconds outcome fresh =>
    have reads := revocationsStart_reads coherent.cached fresh
    exact ⟨kept reads.row_eq rfl coherent, reads.agrees⟩
  | resumed i r running =>
    have reads := revocationsEnd_reads r.nowSeconds coherent.cached
    exact ⟨kept reads.row_eq rfl coherent, reads.agrees⟩
  | restarted => exact ⟨kept rfl rfl coherent, fun cache cached => nomatch cached⟩
  | _ => exact ⟨kept rfl rfl coherent, coherent.cached⟩

private theorem Stepped.answered_of (taken : Stepped engine o event t)
    (coherent : Coherent engine o) :
    ∀ nowSeconds view, t.answer = some (nowSeconds, view) → Answer t.store nowSeconds view := by
  intro nowSeconds view answer
  cases taken with
  | answered now outcome fresh =>
    cases answer
    exact (revocationsStart_reads coherent.cached fresh).answer
  | resumed i r running =>
    cases answer
    exact (revocationsEnd_reads _ coherent.cached).answer
  | _ => cases answer

theorem Stepped.coherent (taken : Stepped engine o event t) (coherent : Coherent engine o)
    (distinct : CollisionFree engine o.downloads) : Coherent engine t where
  genuine := taken.genuine coherent
  sound := taken.sound coherent
  written := (taken.written coherent distinct).1
  cached := (taken.written coherent distinct).2
  answered := taken.answered_of coherent

end Object

/-! ### Runs -/

theorem CollisionFree.of_subset {engine : Engine} {downloads more : List Download}
    (distinct : CollisionFree engine more) (subset : downloads ⊆ more) :
    CollisionFree engine downloads := fun a listedA b listedB =>
  distinct a (subset listedA) b (subset listedB)

/-- Every reachable state is coherent as long as no two downloads collide. -/
theorem Object.coherent_of_run {engine : Engine} {events : List Event} {o : Object}
    (taken : Run (Object.step engine) .initial events o)
    (distinct : CollisionFree engine o.downloads) : Coherent engine o := by
  -- Downloads only grow, so earlier states are collision-free as well.
  refine taken.invariant (fun o => CollisionFree engine o.downloads → Coherent engine o) ?_
    (fun _ => Object.initial_coherent engine) distinct
  intro s event t holds step distinct
  have stepped := Object.stepped_of_step step
  have before := distinct.of_subset stepped.downloads_subset
  exact stepped.coherent (holds before) before

/-- A list comes from the download `d` of the refresh `r` that wrote the row last, and is answered
before it expires. -/
structure ServedFrom (engine : Engine) (o : Object) (nowSeconds : Int) (listed : List JsString)
    (d : Download) (r : Refresh) : Prop where
  downloaded : d ∈ o.downloads
  genuine : Genuine engine d
  listed_eq : listed = d.serials
  writer : o.writer = some d.refresh
  running : o.refreshes[d.refresh]? = some r
  wrote : r.wrote = true
  fresh : (nowSeconds : Number) < snapshotExpiry d.response r.nowSeconds

theorem Coherent.servedFrom {engine : Engine} {o : Object} (coherent : Coherent engine o)
    {row : SnapshotRow} {nowSeconds : Int} (present : o.store.row = some row)
    (fresh : ¬(nowSeconds : Number) ≥ row.expiresAt) :
    ∃ d r, ServedFrom engine o nowSeconds (storedSerials row.serials) d r := by
  obtain ⟨d, r, written⟩ := coherent.written row present
  have genuine := coherent.genuine d written.downloaded
  have before : (nowSeconds : Number) < row.expiresAt := by
    rw [ge_iff_le, Number.le_iff, Number.intCast_def] at fresh
    -- Not to be at or after the expiry is to be before it, as neither is NaN.
    by_contra late
    exact fresh ⟨late, written.number, by simp⟩
  refine ⟨d, r, {
    downloaded := written.downloaded
    genuine := genuine
    listed_eq := ?_
    writer := written.writer
    running := written.running
    wrote := written.wrote
    fresh := ?_ }⟩
  · rw [written.row_eq]
    exact storedSerials_joinSerials d.serials genuine.numerals
  · rw [written.row_eq] at before
    exact before

/-- After any run: a list is answered only while the last written download is fresh, and null only
when it is not; the cache holds the stored list; a refresh that has not written changed nothing. -/
theorem revocations_fresh (engine : Engine) (events : List Event) (o : Object)
    (taken : Run (Object.step engine) .initial events o)
    (distinct : CollisionFree engine o.downloads) :
    (∀ nowSeconds view, o.answer = some (nowSeconds, view) →
      match view.serials with
      | some listed => ∃ d r, ServedFrom engine o nowSeconds listed d r
      | none => ∀ row, o.store.row = some row → row.expiresAt ≤ (nowSeconds : Number)) ∧
    (∀ cache, o.store.cache = some cache → ∃ row, o.store.row = some row ∧
      cache.serials = storedSerials row.serials) ∧
    (∀ event i t, Object.step engine o event = some t → event.refresh = some i →
      (∀ r, t.refreshes[i]? = some r → r.wrote = false) → t.store = o.store) := by
  have coherent := Object.coherent_of_run taken distinct
  refine ⟨?_, ?_, ?_⟩
  · intro nowSeconds view answer
    cases coherent.answered nowSeconds view answer with
    | fresh row present fresh => exact coherent.servedFrom present fresh
    | stale expiresAt stale => exact stale
  · intro cache cached
    obtain ⟨row, present, rfl⟩ := coherent.cached cache cached
    exact ⟨row, present, rfl⟩
  · intro event i t step acts unwritten
    exact (Object.stepped_of_step step).store_eq acts unwritten

namespace Sample

def response : Response where
  status := 200
  contentLength := none
  cacheControl := some (js "public, max-age=600")
  age := none

/-- A call that finds no row, downloads the feed in two chunks and answers from it. -/
def firstCall : List Event :=
  [.revocations 100, .response 0 (some response),
    .body 0 (some [(utf8Encode feedBody).take 20, (utf8Encode feedBody).drop 20]) 101,
    .digest 0 false, .alarmSet 0 false, .resume 0]

end Sample

theorem revocations_fresh_sample :
    ∃ o, Run (Object.step Sample.engine) .initial Sample.firstCall o ∧
      o.answer = some (100, { serials := some [js "ca11cafe"], expiresAt := .finite 400 }) ∧
      ∃ d r, ServedFrom Sample.engine o 100 [js "ca11cafe"] d r := by
  have answered : (run (Object.step Sample.engine) .initial Sample.firstCall).any fun o =>
      o.answer = some (100, { serials := some [js "ca11cafe"], expiresAt := .finite 400 }) ∧
        CollisionFree Sample.engine o.downloads := by decide +kernel
  cases taken : run (Object.step Sample.engine) .initial Sample.firstCall with
  | none => simp [taken] at answered
  | some o =>
    rw [taken, Option.any_some, decide_eq_true_eq] at answered
    exact ⟨o, taken, answered.1,
      (revocations_fresh Sample.engine Sample.firstCall o taken answered.2).1 100 _ answered.1⟩

end UncrackableL5
