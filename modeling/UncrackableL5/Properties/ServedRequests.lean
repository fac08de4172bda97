import UncrackableL5.Library.Pairing
import UncrackableL5.Properties.GenuineClient

/-!
# How many requests are served

The counters of the object are keyed by the minutes that the isolates read. The object runs the
calls in the order of the common clock, so their readings are ordered up to the skew and the time
that a call is under way. As long as that time is bounded no counter is purged too early, and the
minutes bound what is served in a stretch of the common clock.

## Main results

- `requestMinute_intCast`: the division of the reading is exact.
- `Deployment.withinSkew_of_prompt`: prompt calls keep the order that the budget needs.
- `served_requests_bounded`: at most sixty challenges and flags a minute, and three minutes' worth
  more.
-/
namespace UncrackableL5

open Transition

/-! ### Minutes -/

/-- No reading is close enough to the next minute to be rounded up to it. -/
theorem requestMinute_intCast {nowSeconds : Int} (second : IsSecond nowSeconds) :
    requestMinute nowSeconds = ((nowSeconds / 60 : Int) : Number) := by
  simp only [IsSecond] at second
  have whole : (nowSeconds / 60 : Int) * 60 ≤ nowSeconds := by omega
  have part : nowSeconds ≤ (nowSeconds / 60 : Int) * 60 + 59 := by omega
  generalize nowSeconds / 60 = minute at whole part
  have low : (minute : ℚ) ≤ (nowSeconds : ℚ) / (60 : Nat) := by
    have : ((minute * 60 : Int) : ℚ) ≤ nowSeconds := by exact_mod_cast whole
    push_cast at this ⊢
    linarith
  have high :
      (nowSeconds : ℚ) / (60 : Nat) ≤ ((128 * minute + 127 : Int) : ℚ) * 2 ^ (-7 : Int) := by
    have : (nowSeconds : ℚ) ≤ ((minute * 60 + 59 : Int) : ℚ) := by exact_mod_cast part
    push_cast at this ⊢
    norm_num
    linarith
  have below := Number.round_mono low
  have above := Number.round_mono high
  rw [Number.round_intCast _ (by omega)] at below
  rw [Number.round_scaled _ _ (by omega) (by omega) (by omega)] at above
  rw [requestMinute, Number.intCast_def, Number.divNat]
  cases rounded : Number.round ((nowSeconds : ℚ) / (60 : Nat)) with
  | finite q =>
    rw [rounded, Number.finite_le_finite] at below above
    rw [Number.floor, Number.intCast_def, Number.finite.injEq, Int.cast_inj, Int.floor_eq_iff]
    refine ⟨below, ?_⟩
    push_cast at above
    norm_num at above
    linarith
  | nan => exact absurd rounded (Number.round_ne_nan _)
  | posInfinity =>
    rw [rounded] at above
    simp at above
  | negInfinity =>
    rw [rounded] at below
    simp at below

private theorem countP_le_add {α : Type} {p q r : α → Bool} (xs : List α)
    (either : ∀ x, r x = true → p x = true ∨ q x = true) :
    xs.countP r ≤ xs.countP p + xs.countP q := by
  induction xs with
  | nil => simp
  | cons x xs ih =>
    have here := either x
    simp only [List.countP_cons]
    split_ifs <;> simp_all <;> omega

/-- Sixty calls a minute. -/
theorem countP_minutes_le {calls : List BudgetCall}
    (limit : ∀ minute, granted calls minute ≤ rateLimitPerMinute) (first : Int) (count : Nat) :
    calls.countP (fun call => call.answer = .ok true ∧
      ∃ j, j < count ∧ call.minute = ((first + j : Int) : Number)) ≤
        rateLimitPerMinute * count := by
  induction count with
  | zero => simp
  | succ count ih =>
    have split := countP_le_add calls
      (p := fun call => call.answer = .ok true ∧
        ∃ j, j < count ∧ call.minute = ((first + j : Int) : Number))
      (q := fun call => call.answer = .ok true ∧ call.minute = ((first + count : Int) : Number))
      (r := fun call => call.answer = .ok true ∧
        ∃ j, j < count + 1 ∧ call.minute = ((first + j : Int) : Number)) (by
        intro call counted
        obtain ⟨ok, j, bound, minute⟩ := of_decide_eq_true counted
        rcases Nat.lt_succ_iff_lt_or_eq.mp bound with earlier | rfl
        · exact Or.inl (decide_eq_true ⟨ok, j, earlier, minute⟩)
        · exact Or.inr (decide_eq_true ⟨ok, minute⟩))
    have last := limit ((first + count : Int) : Number)
    rw [granted] at last
    rw [Nat.mul_succ]
    omega

/-! ### Calls of the server -/

namespace Deployment

/-- The calls are in the order of the clock, and their readings are not ahead of it. -/
structure Clocked (s : Deployment) : Prop where
  ordered : s.admissions.Pairwise fun a b => a.clock ≤ b.clock
  past : ∀ a ∈ s.admissions, a.clock ≤ s.service.clock
  readings : ∀ a ∈ s.admissions, IsSecond a.nowSeconds ∧ (a.nowSeconds : ℚ) ≤ a.clock + skew
  waiting : ∀ h ∈ s.requests, ∀ nowSeconds, h.phase = .admitting nowSeconds →
    s.service.Stamped nowSeconds

variable {CryptoKey : Type} {engine : Engine} {host : Host CryptoKey} {rt : Runtime}
  {s t : Deployment} {event : DeploymentEvent}

private theorem Clocked.allow (clocked : Clocked s) {nowSeconds : Int}
    (stamped : s.service.Stamped nowSeconds) (request : Option Nat) :
    (s.allow request nowSeconds).admissions.Pairwise (fun a b => a.clock ≤ b.clock) ∧
      (∀ a ∈ (s.allow request nowSeconds).admissions, a.clock ≤ s.service.clock) ∧
      ∀ a ∈ (s.allow request nowSeconds).admissions,
        IsSecond a.nowSeconds ∧ (a.nowSeconds : ℚ) ≤ a.clock + skew := by
  refine ⟨List.pairwise_append.mpr ⟨clocked.ordered, List.pairwise_singleton .., ?_⟩, ?_, ?_⟩
  · intro a member b new
    rw [List.mem_singleton.mp new]
    exact clocked.past a member
  · intro a member
    rcases List.mem_append.mp member with old | new
    · exact clocked.past a old
    · rw [List.mem_singleton.mp new]
  · intro a member
    rcases List.mem_append.mp member with old | new
    · exact clocked.readings a old
    · rw [List.mem_singleton.mp new]
      exact stamped

/-- A request that is changed does not come to wait for the object. -/
private theorem Clocked.waiting_set (clocked : Clocked s) {i : Nat} {new : HttpState}
    (other : ∀ nowSeconds, new.phase ≠ .admitting nowSeconds) :
    ∀ h ∈ s.requests.set i new, ∀ nowSeconds, h.phase = .admitting nowSeconds →
      s.service.Stamped nowSeconds := by
  intro h member nowSeconds phase
  rcases List.mem_or_eq_of_mem_set member with old | rfl
  · exact clocked.waiting h old nowSeconds phase
  · exact absurd phase (other nowSeconds)

theorem Stepped.clocked (stepped : Stepped engine host rt s event t) (clocked : Clocked s) :
    Clocked t := by
  cases stepped with
  | arrived request nowSeconds phase entered =>
    refine { clocked with waiting := fun h member now waits => ?_ }
    rcases List.mem_append.mp member with old | new
    · exact clocked.waiting h old now waits
    · rw [List.mem_singleton.mp new] at waits
      cases entered with
      | answered => cases waits
      | routed route routed reads =>
        cases waits
        have near := (abs_le.mp reads.2).2
        exact ⟨reads.1, by linarith⟩
  | admitted i h nowSeconds running phase =>
    obtain ⟨ordered, past, readings⟩ := clocked.allow
      (clocked.waiting h (List.mem_of_getElem? running) nowSeconds phase) (some i)
    exact ⟨ordered, past, readings, clocked.waiting_set (by simp)⟩
  | admittedLate nowSeconds stamped =>
    obtain ⟨ordered, past, readings⟩ := clocked.allow stamped none
    exact ⟨ordered, past, readings, clocked.waiting⟩
  | went i h settled phase running admits resumed =>
    refine { clocked with waiting := clocked.waiting_set fun nowSeconds waits => ?_ }
    cases waits
    cases resumed
  | malformed i h settled body nowSeconds running resumed decoded =>
    exact { clocked with waiting := clocked.waiting_set (by simp) }
  | began i h settled body nowSeconds request running resumed decoded arrives =>
    exact { clocked with waiting := clocked.waiting_set (by simp) }
  | served event own service same delivered serves =>
    have later : s.service.clock ≤ service.clock := by
      cases Service.stepped_of_step serves with
      | ticked clock later => exact later
      | _ => exact le_rfl
    refine ⟨clocked.ordered, fun a member => (clocked.past a member).trans later, clocked.readings,
      fun h member nowSeconds waits => ?_⟩
    obtain ⟨second, ahead⟩ := clocked.waiting h member nowSeconds waits
    exact ⟨second, ahead.trans (by linarith)⟩
  | looked | moved => exact ⟨clocked.ordered, clocked.past, clocked.readings, clocked.waiting⟩

theorem clocked_of_run {clock : ℚ} {events : List DeploymentEvent}
    (taken : Run (step engine host rt) (.initial clock) events s) : Clocked s :=
  taken.invariant Clocked (fun _ _ _ clocked step => (stepped_of_step step).clocked clocked)
    ⟨.nil, by simp [initial], by simp [initial], by simp [initial]⟩

/-- A call that the object runs within a minute and a half of its reading. -/
def Prompt (s : Deployment) : Prop := ∀ a ∈ s.admissions, a.clock ≤ a.nowSeconds + 90

theorem withinSkew_of_prompt (clocked : Clocked s) (prompt : s.Prompt) :
    WithinSkew (s.admissions.map Admission.call) := by
  constructor
  · intro call member
    obtain ⟨a, present, rfl⟩ := List.mem_map.mp member
    change requestMinute a.nowSeconds ≠ .nan
    rw [requestMinute_intCast (clocked.readings a present).1, Number.intCast_def]
    simp
  · rw [List.pairwise_map]
    refine clocked.ordered.imp_of_mem ?_
    intro earlier a before present order far
    obtain ⟨second, ahead⟩ := clocked.readings earlier before
    have recent := prompt a present
    change FarBehind (requestMinute a.nowSeconds) (requestMinute earlier.nowSeconds) at far
    rw [requestMinute_intCast second, requestMinute_intCast (clocked.readings a present).1,
      Number.intCast_def, Number.intCast_def, farBehind_finite_iff] at far
    -- the earlier reading is at most two minutes ahead of this one
    have near : earlier.nowSeconds ≤ a.nowSeconds + 120 := by
      have : (earlier.nowSeconds : ℚ) ≤ ((a.nowSeconds + 120 : Int) : ℚ) := by
        simp only [skew] at ahead
        push_cast
        linarith
      exact_mod_cast this
    have apart : a.nowSeconds / 60 + 2 < earlier.nowSeconds / 60 := by exact_mod_cast far
    omega

end Deployment

/-! ### Served requests -/

/-- The answers that a client cannot get without the budget. -/
def Reply.Serves : Reply → Prop
  | .challenge _ _ | .other (.flag _ _) => True
  | _ => False

private theorem answered_of_serves {CryptoKey : Type} {engine : Engine} {host : Host CryptoKey}
    {rt : Runtime} {clock : ℚ} {events : List DeploymentEvent} {s : Deployment} {i : Nat}
    {reply : Reply} (taken : Run (Deployment.step engine host rt) (.initial clock) events s)
    (answered : s.reply i = some reply) (serves : reply.Serves) : s.Answered i true := by
  rcases Deployment.reply_cases taken answered with ⟨h, -, justified⟩ | ⟨k, a, response, attempted,
    -, -⟩
  · cases justified with
    | issued _ _ granted => exact granted
    | immediate reply routed =>
      rcases HttpRequest.route_error routed with rfl | rfl <;> exact serves.elim
    | failed e => cases e <;> exact serves.elim
    | _ => exact serves.elim
  · exact attempted.granted

private theorem served_length_le {CryptoKey : Type} {engine : Engine} {host : Host CryptoKey}
    {rt : Runtime} {clock : ℚ} {events : List DeploymentEvent} {s : Deployment}
    (taken : Run (Deployment.step engine host rt) (.initial clock) events s) (prompt : s.Prompt)
    {start : ℚ} {minutes : Nat} {served : List Nat} (distinct : served.Nodup)
    (serves : ∀ i ∈ served, ∃ reply, s.reply i = some reply ∧ reply.Serves)
    (within : ∀ i ∈ served, ∀ a ∈ s.admissions, a.request = some i →
      start ≤ a.clock ∧ a.clock < start + 60 * minutes) :
    served.length ≤ 60 * (minutes + 3) := by
  have clocked := Deployment.clocked_of_run taken
  have limit := (Tally.of_run (Deployment.budget_run taken)
    (Deployment.withinSkew_of_prompt clocked prompt)).limit
  -- every request has a granted call of its own in the stretch
  let counted := s.admissions.filter fun a =>
    a.answer = .ok true ∧ start ≤ a.clock ∧ a.clock < start + 60 * minutes
  have few : served.length ≤ counted.length := by
    refine Pairing.length_le_of_partners (r := fun i (a : Admission) => a.request = some i) distinct
      ?_ ?_
    · intro i member
      obtain ⟨reply, answered, costs⟩ := serves i member
      obtain ⟨a, present, own, granted⟩ := answered_of_serves taken answered costs
      refine ⟨a, List.mem_filter.mpr ⟨present, decide_eq_true ⟨granted, ?_⟩⟩, own⟩
      exact within i member a present own
    · intro i i' a own other
      exact Option.some.inj (own.symm.trans other)
  -- their readings are in one of three minutes more
  let first : Int := ⌊(start - 90) / 60⌋
  have minuteOf : ∀ a ∈ s.admissions, start ≤ a.clock → a.clock < start + 60 * minutes →
      ∃ j, j < minutes + 3 ∧ a.call.minute = ((first + j : Int) : Number) := by
    intro a present early late
    obtain ⟨second, ahead⟩ := clocked.readings a present
    have recent := prompt a present
    have whole : a.nowSeconds / 60 * 60 ≤ a.nowSeconds := by omega
    have part : a.nowSeconds < (a.nowSeconds / 60 + 1) * 60 := by omega
    have minute : a.call.minute = ((a.nowSeconds / 60 : Int) : Number) :=
      requestMinute_intCast second
    generalize a.nowSeconds / 60 = q at whole part minute
    have whole : (q : ℚ) * 60 ≤ a.nowSeconds := by exact_mod_cast whole
    have part : (a.nowSeconds : ℚ) < (q + 1) * 60 := by exact_mod_cast part
    have lower : (first : ℚ) ≤ (start - 90) / 60 := Int.floor_le _
    have upper : (start - 90) / 60 < (first : ℚ) + 1 := Int.lt_floor_add_one _
    simp only [skew] at ahead
    have above : first < q + 1 := by
      have : (first : ℚ) < ((q + 1 : Int) : ℚ) := by
        push_cast
        linarith
      exact_mod_cast this
    have below : q < first + (minutes + 3) := by
      have : (q : ℚ) < ((first + (minutes + 3) : Int) : ℚ) := by
        push_cast
        linarith
      exact_mod_cast this
    refine ⟨(q - first).toNat, by omega, ?_⟩
    rw [minute, Number.intCast_inj]
    omega
  have bound := countP_minutes_le limit first (minutes + 3)
  have same : counted.length ≤ (s.admissions.map Admission.call).countP (fun call =>
      call.answer = .ok true ∧
        ∃ j, j < minutes + 3 ∧ call.minute = ((first + j : Int) : Number)) := by
    rw [← List.countP_eq_length_filter, List.countP_map]
    apply List.countP_mono_left
    intro a present counts
    obtain ⟨granted, early, late⟩ := of_decide_eq_true counts
    exact decide_eq_true ⟨granted, minuteOf a present early late⟩
  exact few.trans (same.trans bound)

/-- A call that the budget refused found its minute full. -/
private theorem full_of_refused {CryptoKey : Type} {engine : Engine} {host : Host CryptoKey}
    {rt : Runtime} {clock : ℚ} {events : List DeploymentEvent} {s : Deployment}
    (taken : Run (Deployment.step engine host rt) (.initial clock) events s) (prompt : s.Prompt)
    {a : Admission} (member : a ∈ s.admissions) (refused : a.answer = .ok false) :
    ∃ before after, s.admissions = before ++ a :: after ∧
      granted (before.map Admission.call) (requestMinute a.nowSeconds) = rateLimitPerMinute := by
  obtain ⟨before, after, split⟩ := List.append_of_mem member
  have skew := Deployment.withinSkew_of_prompt (Deployment.clocked_of_run taken) prompt
  have calls := Deployment.budget_run taken
  rw [split, List.map_append, List.map_cons] at skew calls
  obtain ⟨earlier, reached, continued⟩ := (run_append _ _ _ _).mp calls
  obtain ⟨later, step, -⟩ := (run_cons _ _ _ _).mp continued
  rw [List.append_cons] at skew
  have counted := (Tally.of_run reached skew.past.past).step step skew.past
  exact ⟨before, after, split, counted.refused.mp refused⟩

private theorem refused_of_limited {CryptoKey : Type} {engine : Engine} {host : Host CryptoKey}
    {rt : Runtime} {clock : ℚ} {events : List DeploymentEvent} {s : Deployment} {i : Nat}
    {h : HttpState} (taken : Run (Deployment.step engine host rt) (.initial clock) events s)
    (found : s.requests[i]? = some h) (phase : h.phase = .replied (.error 429 "rate_limited")) :
    s.Answered i false := by
  have flow := Deployment.flow_of_run taken i h found
  rw [Deployment.Flow, phase] at flow
  generalize same : Reply.error 429 "rate_limited" = reply at flow
  cases flow with
  | limited refused => exact refused
  | immediate reply routed => rcases HttpRequest.route_error routed with rfl | rfl <;> cases same
  | failed e routed kind => rcases kind with rfl | rfl <;> cases same
  | _ => cases same

/-- In every run in which the object runs its calls within a minute and a half: of the requests
whose calls it ran in a stretch of so many minutes, at most sixty a minute and three minutes' worth
more are sent a challenge or a flag, however their clocks are off. A request is turned away only
when sixty calls of its minute had been granted. -/
theorem served_requests_bounded {CryptoKey : Type} (engine : Engine) (host : Host CryptoKey)
    (rt : Runtime) (clock : ℚ) (events : List DeploymentEvent) (s : Deployment)
    (taken : Run (Deployment.step engine host rt) (.initial clock) events s) (prompt : s.Prompt) :
    (∀ (start : ℚ) (minutes : Nat) (served : List Nat), served.Nodup →
      (∀ i ∈ served, ∃ reply, s.reply i = some reply ∧ reply.Serves) →
      (∀ i ∈ served, ∀ a ∈ s.admissions, a.request = some i →
        start ≤ a.clock ∧ a.clock < start + 60 * minutes) →
      served.length ≤ 60 * (minutes + 3)) ∧
    ∀ (i : Nat) h, s.requests[i]? = some h → h.phase = .replied (.error 429 "rate_limited") →
      ∃ before a after, s.admissions = before ++ a :: after ∧ a.request = some i ∧
        granted (before.map Admission.call) (requestMinute a.nowSeconds) = 60 := by
  refine ⟨fun start minutes served distinct serves within =>
    served_length_le taken prompt distinct serves within, fun i h found phase => ?_⟩
  obtain ⟨a, member, own, refused⟩ := refused_of_limited taken found phase
  obtain ⟨before, after, split, full⟩ := full_of_refused taken prompt member refused
  exact ⟨before, a, after, split, own, full⟩

namespace Sample

/-- A request at this reading was sent a challenge. -/
def asked (s : Deployment) (nowSeconds : Int) : Deployment :=
  { (s.allow (some s.requests.length) nowSeconds).enter ask
      (.replied (.challenge (challenges.issue nonce nowSeconds) 120)) with
    sent := s.sent ++ [(s.requests.length, challenges.issue nonce nowSeconds)] }

def ticked (s : Deployment) (clock : ℚ) : Deployment :=
  { s with service := { s.service with clock := clock } }

/-- The clocks go on, and a request is made at this reading. -/
def minuteEvents (i : Nat) (clock : ℚ) (nowSeconds : Int) : List DeploymentEvent :=
  .tick clock :: Deployment.challengeEvents i ask nowSeconds nonce

theorem run_minute {s : Deployment} {clock : ℚ} {nowSeconds : Int} (later : s.service.clock ≤ clock)
    (reads : (ticked s clock).service.Reads nowSeconds)
    (allowed : (allowRequest s.budget nowSeconds).1 = .ok true) :
    Run (Deployment.step servingEngine host anchoredRuntime) s
      (minuteEvents s.requests.length clock nowSeconds) (asked (ticked s clock) nowSeconds) := by
  refine (run_cons _ _ _ _).mpr ⟨ticked s clock, ?_,
    Deployment.run_challenge (ticked s clock) ⟨rfl, rfl⟩ reads nonce_length allowed⟩
  simp only [Deployment.step, Service.step, if_pos later, Option.map_some, ticked]

/-- Three requests, a minute apart. -/
def minutesEvents : List DeploymentEvent :=
  minuteEvents 0 1735689610 1735689600 ++ minuteEvents 1 1735689670 1735689660 ++
    minuteEvents 2 1735689730 1735689720

def firstMinute : Deployment := asked (ticked (.initial 1735689610) 1735689610) 1735689600
def secondMinute : Deployment := asked (ticked firstMinute 1735689670) 1735689660
def thirdMinute : Deployment := asked (ticked secondMinute 1735689730) 1735689720

theorem run_minutes :
    Run (Deployment.step servingEngine host anchoredRuntime) (.initial 1735689610) minutesEvents
      thirdMinute := by
  have allowed : (allowRequest [] (1735689600 : Int)).1 = .ok true ∧
      (allowRequest firstMinute.budget (1735689660 : Int)).1 = .ok true ∧
      (allowRequest secondMinute.budget (1735689720 : Int)).1 = .ok true := by
    decide +kernel
  refine (run_append _ _ _ _).mpr ⟨secondMinute, (run_append _ _ _ _).mpr ⟨firstMinute, ?_, ?_⟩, ?_⟩
  · exact run_minute le_rfl ⟨by decide, by norm_num [ticked, skew]⟩ allowed.1
  · exact run_minute (by norm_num [firstMinute, asked, ticked, Deployment.enter, Deployment.allow])
      ⟨by decide, by norm_num [ticked, skew]⟩ allowed.2.1
  · exact run_minute
      (by norm_num [secondMinute, asked, ticked, Deployment.enter, Deployment.allow])
      ⟨by decide, by norm_num [ticked, skew]⟩ allowed.2.2

end Sample

/-- Three requests are served in three minutes. -/
theorem served_requests_bounded_sample :
    ∃ s, Run (Deployment.step Sample.servingEngine Sample.host Sample.anchoredRuntime)
        (.initial 1735689610) Sample.minutesEvents s ∧
      (∀ i ∈ [0, 1, 2], ∃ reply, s.reply i = some reply ∧ reply.Serves) ∧
      s.admissions.map (·.clock) = [1735689610, 1735689670, 1735689730] ∧
      [0, 1, 2].length ≤ 60 * (3 + 3) := by
  have served : ∀ i ∈ [0, 1, 2],
      ∃ reply, Sample.thirdMinute.reply i = some reply ∧ reply.Serves := by
    simp only [List.forall_mem_cons, List.not_mem_nil, false_implies, implies_true, and_true]
    exact ⟨⟨_, rfl, trivial⟩, ⟨_, rfl, trivial⟩, _, rfl, trivial⟩
  have clocks : Sample.thirdMinute.admissions.map (fun a => (a.clock, a.nowSeconds)) =
      [(1735689610, 1735689600), (1735689670, 1735689660), (1735689730, 1735689720)] := rfl
  have each : ∀ a ∈ Sample.thirdMinute.admissions,
      a.clock ≤ (a.nowSeconds : ℚ) + 10 ∧ 1735689600 ≤ a.clock ∧ a.clock < 1735689780 := by
    intro a member
    have listed := List.mem_map_of_mem (f := fun a : Admission => (a.clock, a.nowSeconds)) member
    rw [clocks] at listed
    simp only [List.mem_cons, List.not_mem_nil, or_false, Prod.mk.injEq] at listed
    rcases listed with ⟨clock, reading⟩ | ⟨clock, reading⟩ | ⟨clock, reading⟩ <;>
      rw [clock, reading] <;> norm_num
  refine ⟨Sample.thirdMinute, Sample.run_minutes, served, rfl,
    (served_requests_bounded Sample.servingEngine Sample.host Sample.anchoredRuntime 1735689610 _ _
      Sample.run_minutes ?_).1 1735689600 3 [0, 1, 2] (by decide) served ?_⟩
  · intro a member
    have near := (each a member).1
    linarith
  · intro i _ a member _
    obtain ⟨-, early, late⟩ := each a member
    exact ⟨early, late.trans_le (by norm_num)⟩

end UncrackableL5
