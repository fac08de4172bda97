import Mathlib.Tactic.Linarith
import UncrackableL5.Js.Rounding
import UncrackableL5.Library.Transition
import UncrackableL5.Server.State

/-!
# The request budget

Every call purges by its own reading, and readings are not ordered: isolates differ by clock skew.
A counter that is purged belongs to a minute more than two behind the reading of the call, so as
long as no reading is that far behind another, the counter of a minute that can still be stamped is
the number of requests granted in it.

## Main results

- `requestsOf_deleteBefore`, `requestsOf_countRequest`: what one statement does to a counter.
- `Tally.step`: one call keeps the counters true to the calls before it.
- `request_budget`: the budget over runs of any length.
-/
namespace UncrackableL5

open Transition

/-! ### Calls -/

/-- A call and what it answered. -/
structure BudgetCall where
  nowSeconds : Number
  answer : Js Bool

/-- The wall-clock minute the call is stamped with. -/
def BudgetCall.minute (call : BudgetCall) : Number := requestMinute call.nowSeconds

def budgetStep (budget : RequestBudget) (call : BudgetCall) : Option RequestBudget :=
  if call.answer = (allowRequest budget call.nowSeconds).1 then
    some (allowRequest budget call.nowSeconds).2
  else none

/-- How many of the calls were granted with this stamp. -/
def granted (calls : List BudgetCall) (minute : Number) : Nat :=
  calls.countP fun call => call.answer = .ok true ∧ call.minute = minute

/-- The minute is more than two before the other. -/
def FarBehind (minute other : Number) : Prop :=
  ∃ q : ℚ, minute ≤ .finite q ∧ .finite (q + 2) < other

/-- Every call is stamped with a number, and with none that is far behind an earlier stamp. -/
structure WithinSkew (calls : List BudgetCall) : Prop where
  number : ∀ call ∈ calls, call.minute ≠ .nan
  near : calls.Pairwise fun earlier call => ¬FarBehind call.minute earlier.minute

theorem WithinSkew.past {past rest : List BudgetCall} (skew : WithinSkew (past ++ rest)) :
    WithinSkew past :=
  ⟨fun call member => skew.number call (List.mem_append_left rest member),
    (List.pairwise_append.mp skew.near).1⟩

/-- The last call is not far behind any other. -/
theorem WithinSkew.last {past : List BudgetCall} {call : BudgetCall}
    (skew : WithinSkew (past ++ [call])) :
    ∀ earlier ∈ past, ¬FarBehind call.minute earlier.minute :=
  fun earlier member => (List.pairwise_append.mp skew.near).2.2 earlier member call (by simp)

theorem farBehind_finite_iff (a b : ℚ) : FarBehind (.finite a) (.finite b) ↔ a + 2 < b := by
  constructor
  · rintro ⟨q, low, high⟩
    rw [Number.finite_le_finite] at low
    rw [Number.finite_lt_finite] at high
    linarith
  · intro apart
    exact ⟨a, by simp, by simpa using apart⟩

theorem granted_snoc (past : List BudgetCall) (call : BudgetCall) (minute : Number) :
    granted (past ++ [call]) minute =
      granted past minute + if call.answer = .ok true ∧ call.minute = minute then 1 else 0 := by
  simp [granted, List.countP_append, List.countP_singleton]

theorem requestMinute_isDouble (nowSeconds : Number) : (requestMinute nowSeconds).IsDouble :=
  Number.floor_isDouble (Number.divNat_isDouble nowSeconds 60)

theorem not_farBehind_self (minute : Number) : ¬FarBehind minute minute := by
  cases minute with
  | finite value =>
    rw [farBehind_finite_iff]
    linarith
  | negInfinity =>
    rintro ⟨q, -, high⟩
    simp at high
  | nan =>
    rintro ⟨q, low, -⟩
    simp at low
  | posInfinity =>
    rintro ⟨q, low, -⟩
    simp at low

/-- The purge compares with a rounded difference, which the minute survives as a double. -/
theorem not_purged {minute other : Number} (double : minute.IsDouble)
    (recent : ¬FarBehind minute other) : ¬minute < other.sub (.finite 2) := by
  have near : ∀ q, minute ≤ .finite q → ¬.finite (q + 2) < other := fun q low high =>
    recent ⟨q, low, high⟩
  cases other with
  | nan => cases minute <;> exact Bool.false_ne_true
  | negInfinity => cases minute <;> exact Bool.false_ne_true
  | posInfinity =>
    cases minute with
    | finite value => exact absurd rfl (near value (by simp))
    | negInfinity => exact absurd rfl (near 0 (by simp))
    | _ => simp
  | finite bound =>
    cases minute with
    | finite value =>
      have below : bound - 2 ≤ value := by
        have := near value (by simp)
        simp only [Number.finite_lt_finite, not_lt] at this
        linarith
      have := Number.round_mono below
      rw [double value rfl] at this
      intro purged
      rw [Number.sub, Number.neg, Number.add, ← sub_eq_add_neg] at purged
      exact ((Number.le_iff _ _).mp this).1 purged
    | negInfinity =>
      have := near (bound - 3) (by simp)
      simp only [Number.finite_lt_finite, not_lt] at this
      linarith
    | nan => simp
    | posInfinity => simp

/-! ### Counters -/

@[simp] theorem requestsOf_nil (minute : Number) : requestsOf [] minute = 0 := rfl

theorem requestsOf_cons (row : Int × Nat) (budget : RequestBudget) (minute : Number) :
    requestsOf (row :: budget) minute =
      if (row.1 : Number) = minute then row.2 else requestsOf budget minute := by
  simp only [requestsOf, List.find?_cons]
  split <;> simp_all

/-- A purge that keeps the rows of a minute keeps its counter. -/
theorem requestsOf_filter {minute : Number} (keep : Number → Bool) (kept : keep minute)
    (budget : RequestBudget) :
    requestsOf (budget.filter fun row => keep row.1) minute = requestsOf budget minute := by
  induction budget with
  | nil => rfl
  | cons row budget ih =>
    rw [List.filter_cons, requestsOf_cons]
    by_cases same : (row.1 : Number) = minute
    · rw [if_pos (by rw [same]; exact kept), requestsOf_cons, if_pos same, if_pos same]
    · rw [if_neg same]
      split
      · rw [requestsOf_cons, if_neg same, ih]
      · exact ih

private theorem requestsOf_update (budget : RequestBudget) (key : Int) (minute : Number) :
    requestsOf (budget.map fun row => if row.1 = key then (row.1, row.2 + 1) else row) minute =
      requestsOf budget minute +
        if (key : Number) = minute ∧ ∃ row ∈ budget, row.1 = key then 1 else 0 := by
  induction budget with
  | nil => simp
  | cons row budget ih =>
    rw [List.map_cons, requestsOf_cons, requestsOf_cons, ih]
    by_cases stored : row.1 = key
    · by_cases same : (key : Number) = minute <;> simp [stored, same]
    · by_cases found : (row.1 : Number) = minute
      · have other : (key : Number) ≠ minute := by
          rw [← found, ne_eq, Number.intCast_inj]
          exact Ne.symm stored
        simp [stored, found, other]
      · simp only [found, if_false, List.mem_cons, exists_eq_or_imp, stored, false_or]

private theorem requestsOf_insert {budget : RequestBudget} {key : Int}
    (absent : ∀ row ∈ budget, row.1 ≠ key) (minute : Number) :
    requestsOf (budget ++ [(key, 1)]) minute =
      requestsOf budget minute + if (key : Number) = minute then 1 else 0 := by
  induction budget with
  | nil => simp [requestsOf_cons]
  | cons row budget ih =>
    rw [List.cons_append, requestsOf_cons, requestsOf_cons,
      ih fun other member => absent other (List.mem_cons_of_mem _ member)]
    by_cases found : (row.1 : Number) = minute
    · have other : (key : Number) ≠ minute := by
        rw [← found, ne_eq, Number.intCast_inj]
        exact Ne.symm (absent row List.mem_cons_self)
      simp [found, other]
    · simp [found]

theorem requestsOf_countRequest (budget : RequestBudget) (key : Int) (minute : Number) :
    requestsOf (countRequest budget key) minute =
      requestsOf budget minute + if (key : Number) = minute then 1 else 0 := by
  rw [countRequest]
  split
  next present =>
    obtain ⟨row, member, stored⟩ := List.any_eq_true.mp present
    rw [requestsOf_update]
    have : ∃ row ∈ budget, row.1 = key := ⟨row, member, of_decide_eq_true stored⟩
    simp only [this, and_true]
  next absent =>
    apply requestsOf_insert
    intro row member stored
    exact absent (List.any_eq_true.mpr ⟨row, member, decide_eq_true stored⟩)

/-! ### One call -/

theorem requestsOf_deleteBefore {minute other : Number} (double : minute.IsDouble)
    (recent : ¬FarBehind minute other) (budget : RequestBudget) :
    requestsOf (deleteBefore budget (other.sub (.finite 2))) minute = requestsOf budget minute :=
  requestsOf_filter (fun stored => ¬stored < other.sub (.finite 2))
    (decide_eq_true (not_purged double recent)) budget

theorem rowKey_eq_ok {budget : RequestBudget} {minute : Number} {key : Int}
    (number : minute ≠ .nan) (stored : rowKey budget minute = .ok key) :
    (key : Number) = minute := by
  cases minute with
  | nan => exact absurd rfl number
  | finite value =>
    rw [rowKey] at stored
    split at stored
    next whole =>
      cases stored
      rw [Number.intCast_def, Rat.coe_int_num_of_den_eq_one whole.1]
    next => cases stored
  | negInfinity => cases stored
  | posInfinity => cases stored

/-- What a call with a number for a stamp can do. -/
theorem allowRequest_cases {budget kept : RequestBudget} {nowSeconds : Number}
    (number : requestMinute nowSeconds ≠ .nan)
    (purged : kept = deleteBefore budget ((requestMinute nowSeconds).sub (.finite 2))) :
    (requestsOf kept (requestMinute nowSeconds) ≥ rateLimitPerMinute ∧
      allowRequest budget nowSeconds = (.ok false, kept)) ∨
    (requestsOf kept (requestMinute nowSeconds) < rateLimitPerMinute ∧
      ((∃ e, allowRequest budget nowSeconds = (.error e, kept)) ∨
        ∃ key : Int, (key : Number) = requestMinute nowSeconds ∧
          allowRequest budget nowSeconds = (.ok true, countRequest kept key))) := by
  simp only [allowRequest, ← purged]
  by_cases spent : requestsOf kept (requestMinute nowSeconds) ≥ rateLimitPerMinute
  · exact .inl ⟨spent, if_pos spent⟩
  · refine .inr ⟨not_le.mp spent, ?_⟩
    rw [if_neg spent]
    cases stored : rowKey kept (requestMinute nowSeconds) with
    | error e => exact .inl ⟨e, rfl⟩
    | ok key => exact .inr ⟨key, rowKey_eq_ok number stored, rfl⟩

/-- No minute has more than its share, and the counter of a minute that can still be stamped is
the number of its granted calls. -/
structure Tally (past : List BudgetCall) (budget : RequestBudget) : Prop where
  limit : ∀ minute, granted past minute ≤ rateLimitPerMinute
  counter : ∀ minute : Number, minute.IsDouble →
    (∀ call ∈ past, ¬FarBehind minute call.minute) →
    requestsOf budget minute = granted past minute

/-- What one call that keeps the skew does. -/
structure Counted (past : List BudgetCall) (call : BudgetCall) (budget next : RequestBudget) :
    Prop where
  tally : Tally (past ++ [call]) next
  refused : call.answer = .ok false ↔ granted past call.minute = rateLimitPerMinute
  kept : call.answer = .ok false → next.Sublist budget

theorem Tally.step {past : List BudgetCall} {call : BudgetCall} {budget next : RequestBudget}
    (tally : Tally past budget) (taken : budgetStep budget call = some next)
    (skew : WithinSkew (past ++ [call])) : Counted past call budget next := by
  have number := skew.number call (by simp)
  have recent := skew.last
  have double : call.minute.IsDouble := requestMinute_isDouble call.nowSeconds
  have below := tally.limit call.minute
  -- The counter the call reads is that of the earlier calls of its minute.
  have read : requestsOf (deleteBefore budget (call.minute.sub (.finite 2))) call.minute =
      granted past call.minute := by
    rw [requestsOf_deleteBefore double (not_farBehind_self call.minute),
      tally.counter call.minute double recent]
  have kept : ∀ minute : Number, minute.IsDouble →
      (∀ other ∈ past ++ [call], ¬FarBehind minute other.minute) →
      requestsOf (deleteBefore budget (call.minute.sub (.finite 2))) minute =
        granted past minute := by
    intro minute double usable
    rw [requestsOf_deleteBefore double (usable call (by simp)),
      tally.counter minute double fun other member => usable other (by simp [member])]
  have uncounted : call.answer ≠ .ok true →
      Tally (past ++ [call]) (deleteBefore budget (call.minute.sub (.finite 2))) := by
    intro other
    have same : ∀ minute, granted (past ++ [call]) minute = granted past minute := by
      intro minute
      simp [granted_snoc, other]
    constructor
    · intro minute
      rw [same]
      exact tally.limit minute
    · intro minute double usable
      rw [same]
      exact kept minute double usable
  simp only [budgetStep] at taken
  split at taken
  next answered =>
    obtain rfl := Option.some.inj taken
    rcases allowRequest_cases number rfl with
      ⟨spent, result⟩ | ⟨left, ⟨e, result⟩ | ⟨key, stamp, result⟩⟩
    · rw [← BudgetCall.minute, read] at spent
      rw [result] at answered ⊢
      exact ⟨uncounted (by simp [answered]), iff_of_true answered (le_antisymm below spent),
        fun _ => List.filter_sublist⟩
    · rw [← BudgetCall.minute, read] at left
      rw [result] at answered ⊢
      exact ⟨uncounted (by simp [answered]), iff_of_false (by simp [answered]) left.ne,
        fun _ => List.filter_sublist⟩
    · rw [← BudgetCall.minute, read] at left
      rw [result] at answered ⊢
      refine ⟨⟨?_, ?_⟩, iff_of_false (by simp [answered]) left.ne, by simp [answered]⟩
      · intro minute
        have := tally.limit minute
        rw [granted_snoc]
        split
        next same => exact same.2 ▸ left
        next => exact this
      · intro minute double usable
        rw [requestsOf_countRequest, ← BudgetCall.minute, kept minute double usable, granted_snoc,
          stamp]
        simp [answered, BudgetCall.minute]
  next => cases taken

theorem Tally.of_run {calls : List BudgetCall} {budget : RequestBudget}
    (run : Run budgetStep [] calls budget) (skew : WithinSkew calls) : Tally calls budget := by
  apply run.history (fun past budget => WithinSkew past → Tally past budget) _ _ skew
  · intro _
    exact ⟨fun minute => Nat.zero_le _, fun minute _ _ => rfl⟩
  · intro past call budget next _ tally taken skew
    exact ((tally skew.past).step taken skew).tally

end UncrackableL5
