import UncrackableL5.Server.Challenges
import UncrackableL5.Server.State

/-!
# Checking and consuming a challenge

What `verify` accepts, and what a `consume` call does to the rows of other calls.

## Main results

- `Challenges.verify_eq_ok_iff`: the accepted texts and their window.
- `consume_keeps_row`, `consume_eq_true`: a row outlives every call that is not a minute past it,
  and while it is there no call for its id succeeds.
-/
namespace UncrackableL5

namespace Challenges

/-- The text decodes to an authentic challenge and `nowSeconds` lies in its lifetime. -/
structure Accepts (c : Challenges) (encoded : JsString) (nowSeconds : Int) (bytes : Bytes) :
    Prop where
  size : encoded.length = 76
  decoded : base64UrlDecode encoded = .ok bytes
  octets : bytes.length = 57
  canonical : base64UrlEncodeNoPad bytes = encoded
  version : bytes[0]? = some 1
  authentic : c.tag (bytes.take 41) = bytes.drop 41
  positive : 0 ≤ issuedAt bytes
  started : issuedAt bytes ≤ nowSeconds
  unexpired : nowSeconds < issuedAt bytes + challengeLifetimeSeconds

theorem verify_eq_ok_iff (c : Challenges) (encoded : JsString) (nowSeconds : Int) (bytes : Bytes) :
    c.verify encoded nowSeconds = .ok bytes ↔ c.Accepts encoded nowSeconds bytes := by
  simp only [verify, guard_eq_ok_iff, bind_ok_iff, recover_error_eq_ok_iff, not_not, not_or,
    bytesEqual_iff, not_lt, ge_iff_le, not_le, gt_iff_lt, Except.ok.injEq]
  constructor
  · rintro ⟨size, _, decoded, ⟨octets, canonical, version⟩, authentic,
      ⟨positive, started, live⟩, rfl⟩
    exact ⟨size, decoded, octets, canonical, version, authentic, positive, started, by omega⟩
  · intro a
    exact ⟨a.size, bytes, a.decoded, ⟨a.octets, a.canonical, a.version⟩, a.authentic,
      ⟨a.positive, a.started, by have := a.unexpired; omega⟩, rfl⟩

/-- No rounding takes place within the range of the clock. -/
theorem expiresAtSeconds_eq (bytes : Bytes) (bound : (issuedAt bytes).natAbs ≤ 8640000000000) :
    expiresAtSeconds bytes = ((issuedAt bytes + challengeLifetimeSeconds : Int) : Number) := by
  rw [expiresAtSeconds, Number.round_intCast _ (by omega)]
  exact Number.add_intCast _ _ (by simp only [challengeLifetimeSeconds]; omega)

end Challenges

/-! ### Rows -/

/-- A row that expired at most a minute before a call outlives it. -/
theorem consume_keeps_row {used : UsedChallenges} {row : JsString × Number} (id : JsString)
    (expiresAt nowSeconds : Number) (member : row ∈ used)
    (recent : ¬row.2 < nowSeconds.sub (.finite 60)) :
    row ∈ (consume used id expiresAt nowSeconds).2 := by
  have kept : row ∈ used.filter fun row => ¬row.2 < nowSeconds.sub (.finite 60) :=
    List.mem_filter.mpr ⟨member, by simpa using recent⟩
  simp only [consume]
  split
  next => exact member
  next =>
    split
    next => exact kept
    next =>
      split
      next => exact kept
      next => exact List.mem_append_left _ kept

/-- A call that succeeds found every row of its id purged, and leaves its own. -/
theorem consume_eq_true {used : UsedChallenges} {id : JsString} {expiresAt nowSeconds : Number}
    (granted : (consume used id expiresAt nowSeconds).1 = .ok true) :
    (∀ row ∈ used, row.1 = id → row.2 < nowSeconds.sub (.finite 60)) ∧
      (id, expiresAt) ∈ (consume used id expiresAt nowSeconds).2 := by
  simp only [consume, notNull] at granted ⊢
  split at granted
  next => cases granted
  next valid =>
    split at granted
    next => cases granted
    next absent =>
      simp only [if_neg absent]
      split at granted
      next => cases granted
      next stored =>
        split at stored
        next => cases stored
        next =>
          cases stored
          rw [not_not] at valid
          refine ⟨fun row member same => ?_, by simp [valid]⟩
          -- A row of this id that outlives the purge would refuse the call.
          by_contra recent
          exact absent (List.any_eq_true.mpr
            ⟨row, List.mem_filter.mpr ⟨member, by simpa using recent⟩, by simpa using same⟩)

end UncrackableL5
