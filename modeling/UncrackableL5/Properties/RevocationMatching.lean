import UncrackableL5.Properties.SnapshotFreshness

/-!
# Matching revoked serials, end to end

A feed body is parsed, sorted, joined, stored and read back before a certificate is looked up in
it. A refresh downloads at most once, so the refresh that wrote the row last says which body the
stored list is of.

## Main results

- `Object.Stepped.ledger`: one event keeps the downloads apart and the row once it was written.
- `revocation_matching`: every accepted body is stored, and what is read back contains the serial of
  a certificate exactly when the body has a key with its value.
-/
namespace UncrackableL5

open Transition

variable {engine : Engine} {o t : Object} {event : Event}

/-- The refresh has its body, or has failed. -/
def Refresh.HasRead (r : Refresh) : Prop :=
  match r.phase with
  | .fetching | .reading _ => False
  | _ => True

namespace Object

/-- The row holds what was downloaded in `d`, by the refresh that wrote it last. -/
def Stores (o : Object) (d : Download) : Prop := d ∈ o.downloads ∧ o.writer = some d.refresh

/-- A refresh downloads at most once, and the row stays once it was written. -/
structure Ledger (o : Object) : Prop where
  read : ∀ d ∈ o.downloads, ∃ r, o.refreshes[d.refresh]? = some r ∧ r.HasRead
  once : ∀ d ∈ o.downloads, ∀ d' ∈ o.downloads, d'.refresh = d.refresh → d' = d
  kept : o.writer ≠ none → o.store.row ≠ none

theorem initial_ledger : Ledger .initial where
  read := by simp [initial]
  once := by simp [initial]
  kept := by simp [initial]

/-- A refresh that has read its body does not read again. -/
private theorem hasRead_set {downloads : List Download} {refreshes : List Refresh} {i : Nat}
    {r new : Refresh}
    (before : ∀ d ∈ downloads, ∃ x, refreshes[d.refresh]? = some x ∧ x.HasRead)
    (running : refreshes[i]? = some r) (reads : r.HasRead → new.HasRead) :
    ∀ d ∈ downloads, ∃ x, (refreshes.set i new)[d.refresh]? = some x ∧ x.HasRead := by
  intro d member
  obtain ⟨x, found, read⟩ := before d member
  have bound := (List.getElem?_eq_some_iff.mp running).1
  by_cases same : d.refresh = i
  · rw [same] at found ⊢
    cases running.symm.trans found
    exact ⟨new, List.getElem?_set_self bound, reads read⟩
  · exact ⟨x, by rw [List.getElem?_set_ne (Ne.symm same), found], read⟩

private theorem Stepped.hasRead (taken : Stepped engine o event t) (ledger : Ledger o) :
    ∀ d ∈ t.downloads, ∃ r, t.refreshes[d.refresh]? = some r ∧ r.HasRead := by
  cases taken with
  | answered => exact ledger.read
  | called | alarm =>
    intro d member
    obtain ⟨r, found, read⟩ := ledger.read d member
    have bound := (List.getElem?_eq_some_iff.mp found).1
    exact ⟨r, by simp only [start, List.getElem?_append_left bound, found], read⟩
  | checked i r response running phase =>
    refine hasRead_set ledger.read running fun read => ?_
    simp [Refresh.HasRead, phase] at read
  | read i r response body clock serials expiresAt running =>
    have reads : r.HasRead → Refresh.HasRead { r with phase := .digesting serials expiresAt } :=
      fun _ => trivial
    intro d member
    rcases List.mem_append.mp member with old | new
    · exact hasRead_set ledger.read running reads d old
    · rw [List.mem_singleton.mp new]
      have bound := (List.getElem?_eq_some_iff.mp running).1
      exact ⟨_, List.getElem?_set_self bound, trivial⟩
  | wrote i r serials expiresAt store running =>
    exact hasRead_set ledger.read running fun _ => trivial
  | moved _ i r phase running idle =>
    refine hasRead_set ledger.read running fun _ => ?_
    rcases idle with rfl | rfl | rfl <;> trivial
  | resumed i r running => exact hasRead_set ledger.read running fun _ => trivial
  | restarted =>
    intro d member
    obtain ⟨r, found, -⟩ := ledger.read d member
    exact ⟨{ r with phase := .over }, by simp [found], trivial⟩

private theorem Stepped.downloadsOnce (taken : Stepped engine o event t) (ledger : Ledger o) :
    ∀ d ∈ t.downloads, ∀ d' ∈ t.downloads, d'.refresh = d.refresh → d' = d := by
  cases taken with
  | read i r response body clock serials expiresAt running phase =>
    -- No download is of a refresh that still reads.
    have first : ∀ d ∈ o.downloads, d.refresh ≠ i := by
      rintro d member rfl
      obtain ⟨x, found, read⟩ := ledger.read d member
      cases running.symm.trans found
      simp [Refresh.HasRead, phase] at read
    intro d member d' member' same
    rcases List.mem_append.mp member with old | new <;>
      rcases List.mem_append.mp member' with old' | new'
    · exact ledger.once d old d' old' same
    · rw [List.mem_singleton.mp new'] at same
      exact absurd same.symm (first d old)
    · rw [List.mem_singleton.mp new] at same
      exact absurd same (first d' old')
    · rw [List.mem_singleton.mp new, List.mem_singleton.mp new']
  | _ => exact ledger.once

private theorem Stepped.rowKept (taken : Stepped engine o event t) (ledger : Ledger o) :
    t.writer ≠ none → t.store.row ≠ none := by
  rcases taken.row_eq_or_wrote with ⟨row, writer⟩ | ⟨_, _, _, _, _, -, -, -, written, rfl, -⟩
  · rw [row, writer]
    exact ledger.kept
  · obtain ⟨-, ⟨_, -, -, stored⟩ | stored⟩ := writeSnapshot_eq_ok written <;> simp [stored]

theorem Stepped.ledger (taken : Stepped engine o event t) (ledger : Ledger o) : Ledger t :=
  ⟨taken.hasRead ledger, taken.downloadsOnce ledger, taken.rowKept ledger⟩

theorem ledger_of_run {events : List Event}
    (taken : Run (Object.step engine) .initial events o) : Ledger o :=
  taken.invariant Ledger (fun _ _ _ ledger step => (stepped_of_step step).ledger ledger)
    initial_ledger

/-! ### Storing and reading back -/

/-- A body that the refresh accepts is stored, whatever the row holds. -/
private theorem stores_of_parsed {i : Nat} {r : Refresh} {response : Response}
    {chunks : List Bytes} {serials : List JsString} {clock : Int}
    (running : o.refreshes[i]? = some r) (phase : r.phase = .reading response)
    (fits : chunks.flatten.length ≤ maxFeedBytes)
    (parsed : parseFeed engine (utf8DecodeLossy chunks.flatten) = .ok serials)
    (number : snapshotExpiry response r.nowSeconds ≠ .nan)
    (live : ¬(clock : Number) ≥ snapshotExpiry response r.nowSeconds) :
    ∃ t d, Run (Object.step engine) o [.body i (some chunks) clock, .digest i false] t ∧
      t.Stores d ∧ d.body = chunks := by
  have bound := (List.getElem?_eq_some_iff.mp running).1
  have accepted := readFeed_accepts (boundedText_of_le fits) parsed live
  obtain ⟨store, written⟩ :=
    writeSnapshot_accepts engine o.store (sortStrings serials) r.nowSeconds number
  let d : Download :=
    { refresh := i, response := response, body := chunks, serials := sortStrings serials }
  let middle : Object :=
    { o.setPhase i r (.digesting d.serials (snapshotExpiry response r.nowSeconds)) with
      downloads := o.downloads ++ [d] }
  have first : o.step engine (.body i (some chunks) clock) = some middle := by
    simp only [step, running, phase, bodyRead, accepted]
    rfl
  have second : ∃ t, middle.step engine (.digest i false) = some t ∧
      t.downloads = middle.downloads ∧ t.writer = some i := by
    simp only [step, middle, setPhase, List.getElem?_set_self bound, write, d, written,
      Bool.false_eq_true, if_false]
    exact ⟨_, rfl, rfl, rfl⟩
  obtain ⟨t, last, downloads, writer⟩ := second
  refine ⟨t, d, ?_, ⟨?_, writer⟩, rfl⟩
  · simp only [run_cons, run_nil]
    exact ⟨middle, first, t, last, rfl⟩
  · rw [downloads]
    exact List.mem_append_right _ (List.mem_singleton_self d)

/-- The row holds the list of the download that was stored last. -/
private theorem row_of_stores {d : Download} (coherent : Coherent engine o) (ledger : Ledger o)
    (stores : o.Stores d) :
    ∃ row, o.store.row = some row ∧ storedSerials row.serials = d.serials := by
  obtain ⟨downloaded, writer⟩ := stores
  obtain ⟨row, present⟩ := Option.ne_none_iff_exists'.mp (ledger.kept (by simp [writer]))
  obtain ⟨d', r, written⟩ := coherent.written row present
  have same : d'.refresh = d.refresh := Option.some.inj (written.writer.symm.trans writer)
  obtain rfl := ledger.once d downloaded d' written.downloaded same
  refine ⟨row, present, ?_⟩
  rw [written.row_eq]
  exact storedSerials_joinSerials d'.serials (coherent.genuine d' downloaded).numerals

end Object

/-- In every run without colliding digests. Every body that fits and that `parseFeed` accepts is
stored by its refresh, if it is read before it expires. While a body is the one that was stored
last, what is read back, from the cache or after a restart from the row, and what is answered,
contains the serial of a certificate exactly when the body has a key with its value, and never a
negative one. -/
theorem revocation_matching (engine : Engine) (events : List Event) (o : Object)
    (taken : Run (Object.step engine) .initial events o)
    (distinct : CollisionFree engine o.downloads) :
    (∀ i r response chunks serials (clock : Int), o.refreshes[i]? = some r →
      r.phase = .reading response → chunks.flatten.length ≤ maxFeedBytes →
      parseFeed engine (utf8DecodeLossy chunks.flatten) = .ok serials →
      snapshotExpiry response r.nowSeconds ≠ .nan →
      ¬(clock : Number) ≥ snapshotExpiry response r.nowSeconds →
      ∃ t d, Run (Object.step engine) o [.body i (some chunks) clock, .digest i false] t ∧
        t.Stores d ∧ d.body = chunks) ∧
    ∀ d, o.Stores d →
      (∃ row, o.store.row = some row ∧
        ∀ store, store = o.store ∨ store = { o.store with cache := none } →
          ∃ listed, (viewRow store row).1.serials = some listed ∧
            MatchesFeed engine (utf8DecodeLossy d.body.flatten) listed) ∧
      ∀ nowSeconds view listed, o.answer = some (nowSeconds, view) → view.serials = some listed →
        MatchesFeed engine (utf8DecodeLossy d.body.flatten) listed := by
  refine ⟨fun i r response chunks serials clock running phase fits parsed number live =>
    Object.stores_of_parsed running phase fits parsed number live, fun d stores => ?_⟩
  have coherent := Object.coherent_of_run taken distinct
  obtain ⟨row, present, kept⟩ := Object.row_of_stores coherent (Object.ledger_of_run taken) stores
  obtain ⟨serials, parsed, sorted⟩ := (coherent.genuine d stores.1).parsed
  have matched :
      MatchesFeed engine (utf8DecodeLossy d.body.flatten) (storedSerials row.serials) := by
    rw [kept, sorted]
    exact matchesFeed_of_parsed parsed
  refine ⟨⟨row, present, fun store read => ⟨_, ?_, matched⟩⟩, ?_⟩
  · rcases read with rfl | rfl
    · rw [viewRow_eq present coherent.cached]
    · rfl
  · intro now view listed answered some
    cases coherent.answered now view answered with
    | stale => cases some
    | fresh other held =>
      cases some
      cases present.symm.trans held
      exact matched

namespace Sample

/-- A call that finds no row stores what it downloads and answers from it. -/
theorem stored :
    ∃ o d, Run (Object.step Sample.engine) .initial firstCall o ∧
      CollisionFree Sample.engine o.downloads ∧ o.Stores d ∧
      utf8DecodeLossy d.body.flatten = feedBody ∧
      o.answer = some (100, { serials := some [js "ca11cafe"], expiresAt := .finite 400 }) := by
  have evaluated : (run (Object.step Sample.engine) .initial firstCall).any fun o =>
      CollisionFree Sample.engine o.downloads ∧
        o.answer = some (100, { serials := some [js "ca11cafe"], expiresAt := .finite 400 }) ∧
        o.downloads.any fun d =>
          o.writer = some d.refresh ∧ utf8DecodeLossy d.body.flatten = feedBody := by
    decide +kernel
  obtain ⟨o, taken, evaluated⟩ := (Option.any_eq_true _ _).mp evaluated
  obtain ⟨distinct, answered, some⟩ := of_decide_eq_true evaluated
  obtain ⟨d, member, same⟩ := List.any_eq_true.mp some
  obtain ⟨writer, body⟩ := of_decide_eq_true same
  exact ⟨o, d, taken, distinct, ⟨member, writer⟩, body, answered⟩

end Sample

/-- The feed has the root's serial in upper case and with two zeros in front. -/
theorem revocation_matching_sample :
    ∃ o cert, Run (Object.step Sample.engine) .initial Sample.firstCall o ∧
      o.answer = some (100, { serials := some [js "ca11cafe"], expiresAt := .finite 400 }) ∧
      parseCertificate Sample.host.tables Sample.rootDer = .ok cert ∧
      (hexValue (js "00CA11CAFE") : Int) = cert.serial ∧
      [js "ca11cafe"].contains cert.serialHex = true := by
  obtain ⟨o, d, taken, distinct, stores, body, answered⟩ := Sample.stored
  have certified : ((parseCertificate Sample.host.tables Sample.rootDer).toOption.any fun cert =>
      (hexValue (js "00CA11CAFE") : Int) = cert.serial) = true := by decide +kernel
  obtain ⟨cert, parsed, serial⟩ := (Option.any_eq_true _ _).mp certified
  have parsed := toOption_eq_some_iff.mp parsed
  have serial := of_decide_eq_true serial
  have keys : (feedEntries Sample.engine Sample.feedBody).toOption.map (·.map Prod.fst) =
      some [js "00CA11CAFE"] := by decide +kernel
  obtain ⟨entries, found, matched⟩ := ((revocation_matching Sample.engine Sample.firstCall o taken
    distinct).2 d stores).2 100 _ _ answered rfl
  rw [body] at found
  rw [found] at keys
  have keys : entries.map Prod.fst = [js "00CA11CAFE"] := Option.some.inj keys
  obtain ⟨e, listed, key⟩ : ∃ e ∈ entries, e.1 = js "00CA11CAFE" := by
    rw [← List.mem_map, keys]
    exact List.mem_singleton_self _
  refine ⟨o, cert, taken, answered, parsed, serial, ?_⟩
  exact ((matched Sample.host.tables Sample.rootDer cert parsed).1 (by omega)).mpr
    ⟨e, listed, key ▸ serial⟩

end UncrackableL5
