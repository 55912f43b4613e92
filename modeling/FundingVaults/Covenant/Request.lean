import FundingVaults.Covenant.Rule
import FundingVaults.Lib.Json
import FundingVaults.Lib.Numeral
import Mathlib.Algebra.Order.BigOperators.Group.List
import Mathlib.Algebra.Order.Round
import Mathlib.Tactic.Linarith

/-!
# Requests from JSON

Transcription of `request_from_dict`, and what its decisions have to do with the amounts that a
request states.  The amounts of events pass through `int`, which drops the fraction of a number; all
other numbers are taken as they are.  Numbers are exact.
-/

namespace FundingVaults.Covenant

/-! ## Values -/

/-- `int` of a number, which rounds toward zero. -/
def truncate (q : ℚ) : ℤ := if 0 ≤ q then ⌊q⌋ else ⌈q⌉

/-- `int`. -/
def int : Json → Except String ℤ
  | .int n => .ok n
  | .real q => .ok (truncate q)
  | .bool b => .ok (if b then 1 else 0)
  | .str text => okOr (Numeral.int? text) "ValueError"
  | _ => .error "TypeError"

/-- A value that compares and multiplies as a number. -/
def number : Json → Except String ℚ
  | .int n => .ok n
  | .real q => .ok q
  | .bool b => .ok (if b then 1 else 0)
  | _ => .error "TypeError"

/-- What a loop over a value goes through. -/
def iterated : Json → Except String (List Json)
  | .arr elements => .ok elements
  | .obj members => .ok (members.map fun m ↦ .str m.1)
  | .str text => .ok (text.toList.map fun c ↦ .str (String.singleton c))
  | _ => .error "TypeError"

/-- `item[key]`. -/
def item (value : Json) (key : String) : Except String Json :=
  match value with
  | .obj members => okOr (members.lookup key) "KeyError"
  | _ => .error "TypeError"

/-! ## Requests -/

def EventKind.all : List EventKind := [.SALE, .OTC, .GRANT, .FREE_WALLET_TRANSFER, .COLLATERAL,
  .ECONOMIC_RIGHT_TRANSFER, .EQUAL_OR_STRICTER_LOCK_MIGRATION]

/-- `EventKind(value)`. -/
def EventKind.of (value : Json) : Except String EventKind :=
  okOr (EventKind.all.find? fun kind ↦ value.asStr? == some kind.value) "ValueError"

def releaseEvent (value : Json) : Except String ReleaseEvent := do
  let kind ← EventKind.of (← item value "kind")
  let amount ← int (← item value "amount")
  if nonneg : 0 ≤ amount then .ok { kind, amount, nonneg }
  else .error "event amount must be non-negative"

/-- The events of a pool, none by default. -/
def events (data : List (String × Json)) (field : String) : Except String (List ReleaseEvent) := do
  let items ← iterated ((data.lookup field).getD (.arr []))
  items.mapM releaseEvent

/-- The parameters of a request. -/
def PARAMETERS : List String := ["period_id", "beneficiary_locked_balance_at_year_start",
  "purpose_locked_balance_at_year_start", "annual_release_bps", "eligible_trailing_30d_spot_volume",
  "market_capacity_bps", "beneficiary_months_since_genesis", "beneficiary_cliff_months",
  "beneficiary_events", "purpose_events", "purpose_approved_need", "hard_ceiling"]

/-- A parameter without a default. -/
def required (data : List (String × Json)) (key : String) : Except String Json :=
  okOr (data.lookup key) "TypeError"

/-- The ceiling, which may be absent. -/
def ceiling : Json → Except String (Option ℚ)
  | .null => .ok none
  | value => do
    let c ← number value
    pure (some c)

/-- A request from its fields, if they pass the checks. -/
def ReleaseRequest.ofFields (fields : Fields) : Except String ReleaseRequest :=
  match valid : fields.postInit with
  | .ok () => .ok { fields with valid }
  | .error e => .error e

theorem ReleaseRequest.ofFields_eq {fields : Fields} (valid : fields.postInit = .ok ()) :
    ReleaseRequest.ofFields fields = .ok { fields with valid } := by
  unfold ReleaseRequest.ofFields
  split
  next => rfl
  next e herror =>
    rw [valid] at herror
    cases herror

theorem ReleaseRequest.ofFields_eq_ok {fields : Fields} {request : ReleaseRequest}
    (h : ReleaseRequest.ofFields fields = .ok request) : request.toFields = fields := by
  unfold ReleaseRequest.ofFields at h
  split at h
  next =>
    obtain rfl := Except.ok.inj h
    rfl
  next => cases h

/-- `request_from_dict`.  A value of the wrong type is refused by the checks of the request. -/
def requestFromDict (data : List (String × Json)) : Except String ReleaseRequest := do
  let beneficiaryEvents ← events data "beneficiary_events"
  let purposeEvents ← events data "purpose_events"
  require ((data.map Prod.fst).all PARAMETERS.contains) "TypeError"
  let periodId ← okOr (← required data "period_id").asStr? "TypeError"
  let beneficiaryLockedBalanceAtYearStart ←
    number (← required data "beneficiary_locked_balance_at_year_start")
  let purposeLockedBalanceAtYearStart ←
    number (← required data "purpose_locked_balance_at_year_start")
  let annualReleaseBps ← number (← required data "annual_release_bps")
  let eligibleTrailing30dSpotVolume ← number (← required data "eligible_trailing_30d_spot_volume")
  let marketCapacityBps ← number (← required data "market_capacity_bps")
  let beneficiaryMonthsSinceGenesis ← number (← required data "beneficiary_months_since_genesis")
  let beneficiaryCliffMonths ← number ((data.lookup "beneficiary_cliff_months").getD (.int 24))
  let purposeApprovedNeed ← number ((data.lookup "purpose_approved_need").getD (.int 0))
  let hardCeiling ← ceiling ((data.lookup "hard_ceiling").getD .null)
  ReleaseRequest.ofFields {
    periodId := periodId
    beneficiaryLockedBalanceAtYearStart
    purposeLockedBalanceAtYearStart
    annualReleaseBps
    eligibleTrailing30dSpotVolume
    marketCapacityBps
    beneficiaryMonthsSinceGenesis
    beneficiaryCliffMonths
    beneficiaryEvents
    purposeEvents
    purposeApprovedNeed
    hardCeiling }

/-! ## What a request states -/

/-- The amount that a value states. -/
def stated : Json → ℚ
  | .int n => n
  | .real q => q
  | .bool b => if b then 1 else 0
  | .str text => (Numeral.int? text).getD 0
  | _ => 0

/-- The events of a pool, as the request lists them. -/
def listed (data : List (String × Json)) (field : String) : List Json :=
  (((data.lookup field).getD (.arr [])).asArr?).getD []

/-- The amounts that count as a release. -/
def counted (items : List Json) : List Json :=
  (items.filter fun i ↦
    (i.get "kind").asStr? ≠ some EventKind.EQUAL_OR_STRICTER_LOCK_MIGRATION.value).map
    fun i ↦ i.get "amount"

/-- The release of a pool, as the request states it. -/
def statedRelease (items : List Json) : ℚ := ((counted items).map stated).sum

/-- The release of a pool without the fractions of its amounts. -/
def wholeRelease (items : List Json) : ℤ := ((counted items).map fun a ↦ truncate (stated a)).sum

theorem truncate_intCast (n : ℤ) : truncate n = n := by
  unfold truncate
  split
  · exact Int.floor_intCast n
  · exact Int.ceil_intCast n

theorem int_eq_ok {value : Json} {n : ℤ} (h : int value = .ok n) : truncate (stated value) = n := by
  cases value with
  | int m =>
    obtain rfl := Except.ok.inj h
    exact truncate_intCast m
  | real q => exact Except.ok.inj h
  | bool b =>
    obtain rfl := Except.ok.inj h
    cases b with
    | false => exact truncate_intCast 0
    | true => exact truncate_intCast 1
  | str text =>
    rw [int, okOr_eq_ok] at h
    rw [stated, h]
    exact truncate_intCast n
  | null | arr _ | obj _ => cases h

theorem item_eq_ok {value member : Json} {key : String} (h : item value key = .ok member) :
    value.get key = member := by
  cases value with
  | obj members =>
    rw [item, okOr_eq_ok] at h
    rw [Json.get, Json.get?, h]
    rfl
  | null | bool _ | int _ | real _ | str _ | arr _ => cases h

theorem EventKind.value_inj {a b : EventKind} : a.value = b.value ↔ a = b := by
  constructor
  · intro h
    cases a <;> cases b <;> first | rfl | simp [EventKind.value] at h
  · exact congrArg _

theorem EventKind.of_eq_ok {value : Json} {kind : EventKind} (h : EventKind.of value = .ok kind) :
    value.asStr? = some kind.value := by
  rw [EventKind.of, okOr_eq_ok] at h
  simpa using List.find?_some h

theorem releaseEvent_eq_ok {i : Json} {event : ReleaseEvent} (h : releaseEvent i = .ok event) :
    (i.get "kind").asStr? = some event.kind.value ∧
      truncate (stated (i.get "amount")) = event.amount := by
  simp only [releaseEvent, bind_eq_ok] at h
  obtain ⟨k, hk, kind, hkind, a, ha, amount, hamount, h⟩ := h
  rw [item_eq_ok hk, item_eq_ok ha]
  split at h
  next hnonneg =>
    obtain rfl := Except.ok.inj h
    exact ⟨EventKind.of_eq_ok hkind, int_eq_ok hamount⟩
  next => cases h

/-- The evaluator counts the amounts without their fractions. -/
theorem netRelease_eq {items : List Json} {es : List ReleaseEvent}
    (h : items.mapM releaseEvent = .ok es) : netRelease es = wholeRelease items := by
  rw [mapM_eq_ok] at h
  induction h with
  | nil => rfl
  | @cons i event items es hevent _ ih =>
    obtain ⟨hkind, hamount⟩ := releaseEvent_eq_ok hevent
    unfold netRelease wholeRelease counted at ih ⊢
    rw [List.filter_cons, List.filter_cons, hkind]
    by_cases hexempt : event.kind = .EQUAL_OR_STRICTER_LOCK_MIGRATION
    · rw [if_neg (by simp [hexempt]), if_neg (by simp [hexempt]), ih]
    · rw [if_pos (by simpa using hexempt), if_pos (by simpa [EventKind.value_inj] using hexempt)]
      rw [List.map_cons, List.map_cons, List.map_cons, List.sum_cons, List.sum_cons, ih, hamount]

theorem events_eq_ok {data : List (String × Json)} {field : String} {es : List ReleaseEvent}
    (h : events data field = .ok es) : (listed data field).mapM releaseEvent = .ok es := by
  have hstrings : ∀ texts : List String,
      (texts.map Json.str).mapM releaseEvent = .ok es → [] = es := by
    rintro (_ | ⟨text, texts⟩) hmap
    · exact pure_eq_ok.mp hmap
    · simp [releaseEvent, item] at hmap
  simp only [events, bind_eq_ok] at h
  obtain ⟨items, hitems, h⟩ := h
  unfold listed
  cases hvalue : (data.lookup field).getD (.arr []) with
  | arr elements =>
    rw [hvalue] at hitems
    obtain rfl := Except.ok.inj hitems
    exact h
  | obj members =>
    rw [hvalue] at hitems
    obtain rfl := Except.ok.inj hitems
    obtain rfl := hstrings (members.map Prod.fst) (by rwa [List.map_map])
    rfl
  | str text =>
    rw [hvalue] at hitems
    obtain rfl := Except.ok.inj hitems
    obtain rfl := hstrings (text.toList.map String.singleton) (by rwa [List.map_map])
    rfl
  | null | bool _ | int _ | real _ =>
    rw [hvalue] at hitems
    cases hitems

section Accepted

variable {data : List (String × Json)} {request : ReleaseRequest}

/-- The events of an accepted request are the listed ones. -/
theorem requestFromDict_events (h : requestFromDict data = .ok request) :
    (listed data "beneficiary_events").mapM releaseEvent = .ok request.beneficiaryEvents ∧
      (listed data "purpose_events").mapM releaseEvent = .ok request.purposeEvents := by
  simp only [requestFromDict, bind_eq_ok] at h
  obtain ⟨b, hb, p, hp, h⟩ := h
  -- What the other parameters are makes no difference.
  iterate 18 obtain ⟨_, _, h⟩ := h
  rw [ReleaseRequest.ofFields_eq_ok h]
  exact ⟨events_eq_ok hb, events_eq_ok hp⟩

theorem requestFromDict_allowed (h : requestFromDict data = .ok request) :
    (evaluateRelease request).allowed ↔ request.Allows
      (wholeRelease (listed data "beneficiary_events"))
      (wholeRelease (listed data "purpose_events")) := by
  obtain ⟨hb, hp⟩ := requestFromDict_events h
  rw [evaluateRelease_allowed, netRelease_eq hb, netRelease_eq hp]

end Accepted

/-! ## Requests with given limits -/

/-- The ceiling as a request writes it. -/
def ceilingText : Option ℚ → Json
  | none => .null
  | some c => .real c

/-- A month after the cliff, whose pools may release so much each, within a market and a need of
`most`. -/
def limits (b p most : ℕ) (c : Option ℚ) (beneficiary purpose : List Json) :
    List (String × Json) := [
  ("period_id", .str "2026-08"),
  ("beneficiary_locked_balance_at_year_start", .int (240 * b : ℕ)),
  ("purpose_locked_balance_at_year_start", .int (240 * p : ℕ)),
  ("annual_release_bps", .int (500 : ℕ)),
  ("eligible_trailing_30d_spot_volume", .int (20 * most : ℕ)),
  ("market_capacity_bps", .int (500 : ℕ)),
  ("beneficiary_months_since_genesis", .int 24),
  ("beneficiary_events", .arr beneficiary),
  ("purpose_events", .arr purpose),
  ("purpose_approved_need", .int most),
  ("hard_ceiling", ceilingText c)]

section Limits

variable {b p most : ℕ} {c : Option ℚ} {beneficiary purpose : List Json} {es es' : List ReleaseEvent}

theorem listed_limits :
    listed (limits b p most c beneficiary purpose) "beneficiary_events" = beneficiary ∧
    listed (limits b p most c beneficiary purpose) "purpose_events" = purpose := by
  simp [listed, limits, List.lookup_cons, Json.asArr?]

def limitFields (b p most : ℕ) (c : Option ℚ) (es es' : List ReleaseEvent) : Fields where
  periodId := "2026-08"
  beneficiaryLockedBalanceAtYearStart := (240 * b : ℕ)
  purposeLockedBalanceAtYearStart := (240 * p : ℕ)
  annualReleaseBps := (500 : ℕ)
  eligibleTrailing30dSpotVolume := (20 * most : ℕ)
  marketCapacityBps := (500 : ℕ)
  beneficiaryMonthsSinceGenesis := 24
  beneficiaryCliffMonths := 24
  beneficiaryEvents := es
  purposeEvents := es'
  purposeApprovedNeed := most
  hardCeiling := c

theorem limitFields_valid (hc : ∀ x ∈ c, 0 < x) :
    (limitFields b p most c es es').postInit = .ok () := by
  have hperiod : periodIdMatches "2026-08" = true := by decide
  simp only [Fields.postInit, bind_eq_ok, require_eq_ok, exists_const]
  refine ⟨hperiod, ?_, ?_, ?_, ?_⟩
  · simp only [limitFields, List.forall_mem_cons, not_lt]
    refine ⟨?_, ?_, ?_, ?_, ?_, ?_, ?_⟩
    all_goals first | positivity | simp
  · simp only [limitFields]
    norm_num
  · simp only [limitFields]
    norm_num
  · exact fun x hx ↦ not_le.mpr (hc x hx)

theorem requestFromDict_limits (hb : beneficiary.mapM releaseEvent = .ok es)
    (hp : purpose.mapM releaseEvent = .ok es') (hc : ∀ x ∈ c, 0 < x) :
    requestFromDict (limits b p most c beneficiary purpose) =
      .ok { limitFields b p most c es es' with valid := limitFields_valid hc } := by
  have hevents : events (limits b p most c beneficiary purpose) "beneficiary_events" = .ok es := by
    simp [events, limits, List.lookup_cons, iterated, hb]
  have hevents' : events (limits b p most c beneficiary purpose) "purpose_events" = .ok es' := by
    simp [events, limits, List.lookup_cons, iterated, hp]
  have hnames : ((limits b p most c beneficiary purpose).map Prod.fst).all PARAMETERS.contains :=
    by simp [limits, PARAMETERS]
  have hceiling : ceiling (ceilingText c) = .ok c := by cases c <;> rfl
  simp only [requestFromDict, bind_eq_ok, hevents, hevents', Except.ok.injEq, exists_eq_left',
    require_eq_ok, hnames, exists_const, true_and]
  rw [← ReleaseRequest.ofFields_eq (limitFields_valid hc)]
  simp [required, limits, List.lookup_cons, number, hceiling, Json.asStr?, limitFields]

theorem limitFields_allows {x y : ℚ} : (limitFields b p most c es es').Allows x y ↔
    x ≤ b ∧ y ≤ p ∧ y ≤ most ∧ x + y ≤ most ∧ ∀ limit ∈ c, x + y ≤ limit := by
  have hrate : ∀ n : ℕ, monthlyRateCap (240 * n : ℕ) (500 : ℕ) = n := by
    intro n
    rw [monthlyRateCap_natCast]
    omega
  have hmarket : floorDiv ((20 * most : ℕ) * (500 : ℕ)) BPS_DENOMINATOR = most := by
    have hdiv := floorDiv_natCast (20 * most * 500) 10000
    have hmost : 20 * most * 500 / 10000 = most := by omega
    rw [hmost] at hdiv
    rw [BPS_DENOMINATOR, ← hdiv]
    push_cast
    rfl
  constructor
  · intro h
    have hb := h.beneficiaryRate
    have hp := h.purposeRate
    have hm := h.absorption
    simp only [limitFields, hrate, hmarket, Int.cast_natCast] at hb hp hm
    exact ⟨hb, hp, h.need, hm, h.ceiling⟩
  · rintro ⟨hb, hp, hneed, hm, hc⟩
    refine ⟨fun hlt ↦ absurd hlt (lt_irrefl _), ?_, ?_, hneed, ?_, hc⟩
    all_goals simpa only [limitFields, hrate, hmarket, Int.cast_natCast]

end Limits

/-! ## When the decision is about the stated amounts -/

/-- Without the fractions of its amounts each pool releases what it states, or nothing is released
and nothing was stated to be. -/
def Undistorted (beneficiary purpose : List Json) : Prop :=
  (wholeRelease beneficiary = statedRelease beneficiary ∧
      wholeRelease purpose = statedRelease purpose) ∨
    (wholeRelease beneficiary = 0 ∧ wholeRelease purpose = 0 ∧ statedRelease beneficiary ≤ 0 ∧
      statedRelease purpose ≤ 0)

theorem wholeRelease_nonneg {items : List Json} {es : List ReleaseEvent}
    (h : items.mapM releaseEvent = .ok es) : 0 ≤ wholeRelease items := by
  rw [← netRelease_eq h, netRelease]
  refine List.sum_nonneg fun amount hamount ↦ ?_
  obtain ⟨event, -, rfl⟩ := List.mem_map.mp hamount
  exact event.nonneg

theorem floorDiv_nonneg {a b : ℚ} (ha : 0 ≤ a) (hb : 0 ≤ b) : 0 ≤ floorDiv a b :=
  Int.floor_nonneg.mpr (div_nonneg ha hb)

theorem monthlyRateCap_nonneg {balance bps : ℚ} (hbalance : 0 ≤ balance) (hbps : 0 ≤ bps) :
    0 ≤ monthlyRateCap balance bps := by
  have hyear : 0 ≤ floorDiv (balance * bps) BPS_DENOMINATOR :=
    floorDiv_nonneg (mul_nonneg hbalance hbps) (by norm_num [BPS_DENOMINATOR])
  exact floorDiv_nonneg (by exact_mod_cast hyear) (by norm_num [MONTHS_PER_YEAR])

/-- Where nothing is released, the rule is kept. -/
theorem ReleaseRequest.allows_of_nonpos (request : ReleaseRequest) {x y : ℚ} (hx : x ≤ 0)
    (hy : y ≤ 0) : request.Allows x y := by
  have hvalid := request.valid
  simp only [Fields.postInit, bind_eq_ok, require_eq_ok, exists_const, List.forall_mem_cons,
    not_lt, not_le] at hvalid
  obtain ⟨-, ⟨hb, hp, hvolume, -, -, hneed, -⟩, ⟨hrate, -⟩, ⟨hmarket, -⟩, hceiling⟩ := hvalid
  have hxy : x + y ≤ 0 := add_nonpos hx hy
  have hbcap := monthlyRateCap_nonneg hb hrate
  have hpcap := monthlyRateCap_nonneg hp hrate
  have habsorption : 0 ≤ floorDiv (request.eligibleTrailing30dSpotVolume * request.marketCapacityBps)
      BPS_DENOMINATOR :=
    floorDiv_nonneg (mul_nonneg hvolume hmarket) (by norm_num [BPS_DENOMINATOR])
  exact {
    cliff := fun _ ↦ hx
    beneficiaryRate := hx.trans (by exact_mod_cast hbcap)
    purposeRate := hy.trans (by exact_mod_cast hpcap)
    need := hy.trans hneed
    absorption := hxy.trans (by exact_mod_cast habsorption)
    ceiling := fun c hc ↦ hxy.trans (hceiling c hc).le }

section Exact

variable {beneficiary purpose : List Json} {es es' : List ReleaseEvent}

/-- Some limits tell the stated amounts from the counted ones, unless they are undistorted. -/
theorem exists_limits (hb : beneficiary.mapM releaseEvent = .ok es)
    (hp : purpose.mapM releaseEvent = .ok es') (h : ¬ Undistorted beneficiary purpose) :
    ∃ (b p most : ℕ) (c : Option ℚ), (∀ x ∈ c, 0 < x) ∧
      ¬ ((limitFields b p most c es es').Allows (wholeRelease beneficiary) (wholeRelease purpose) ↔
        (limitFields b p most c es es').Allows (statedRelease beneficiary)
          (statedRelease purpose)) := by
  unfold Undistorted at h
  obtain ⟨b, hb⟩ := Int.eq_ofNat_of_zero_le (wholeRelease_nonneg hb)
  obtain ⟨p, hp⟩ := Int.eq_ofNat_of_zero_le (wholeRelease_nonneg hp)
  rw [hb, hp] at h ⊢
  simp only [limitFields_allows, Int.cast_natCast] at h ⊢
  generalize statedRelease beneficiary = x at h ⊢
  generalize statedRelease purpose = y at h ⊢
  by_cases hkept : x ≤ b ∧ y ≤ p
  case neg =>
    -- The counted amounts pass where a pool may release just so much.
    refine ⟨b, p, b + p, none, by simp, fun hiff ↦ hkept ?_⟩
    have hallowed := hiff.mp ⟨le_rfl, le_rfl, by simp, by simp, by simp⟩
    exact ⟨hallowed.1, hallowed.2.1⟩
  -- Neither pool states more than is counted, so a ceiling in between lets only the stated pass.
  obtain ⟨hxb, hyp⟩ := hkept
  have hb0 : (0 : ℚ) ≤ b := Nat.cast_nonneg b
  have hp0 : (0 : ℚ) ≤ p := Nat.cast_nonneg p
  have hpos : (0 : ℚ) < b + p := by
    refine lt_of_le_of_ne (add_nonneg hb0 hp0) fun hzero ↦ h (.inr ?_)
    obtain ⟨hbzero, hpzero⟩ := (add_eq_zero_iff_of_nonneg hb0 hp0).mp hzero.symm
    exact ⟨by exact_mod_cast hbzero, by exact_mod_cast hpzero, hbzero ▸ hxb, hpzero ▸ hyp⟩
  have hlt : x + y < b + p := by
    refine lt_of_le_of_ne (add_le_add hxb hyp) fun heq ↦ h (.inl ?_)
    exact ⟨by linarith, by linarith⟩
  refine ⟨b, p, b + p, some (max (x + y) ((b + p) / 2)), ?_, fun hiff ↦ ?_⟩
  · intro c hc
    rw [← Option.mem_some_iff.mp hc]
    exact lt_max_of_lt_right (by linarith)
  · have hkept := hiff.mpr ⟨hxb, hyp, ?_, ?_, ?_⟩
    · have hceiling := hkept.2.2.2.2 _ rfl
      exact absurd hceiling (not_le.mpr (max_lt hlt (by linarith)))
    · push_cast
      linarith
    · push_cast
      exact hlt.le
    · intro c hc
      rw [← Option.mem_some_iff.mp hc]
      exact le_max_left _ _

end Exact

/-- The decisions on requests with the same events are about the stated amounts, whatever the
limits, exactly if the events are undistorted. -/
theorem requestFromDict_exact {data : List (String × Json)} {request : ReleaseRequest}
    (h : requestFromDict data = .ok request) :
    (∀ data' request', listed data' "beneficiary_events" = listed data "beneficiary_events" →
      listed data' "purpose_events" = listed data "purpose_events" →
      requestFromDict data' = .ok request' →
        ((evaluateRelease request').allowed ↔
          request'.Allows (statedRelease (listed data "beneficiary_events"))
            (statedRelease (listed data "purpose_events")))) ↔
      Undistorted (listed data "beneficiary_events") (listed data "purpose_events") := by
  obtain ⟨hb, hp⟩ := requestFromDict_events h
  constructor
  · intro hall
    by_contra hdistorted
    obtain ⟨b, p, most, c, hc, hdiffers⟩ := exists_limits hb hp hdistorted
    have hmade : requestFromDict (limits b p most c _ _) = _ := requestFromDict_limits hb hp hc
    have hexact := hall _ _ listed_limits.1 listed_limits.2 hmade
    rw [requestFromDict_allowed hmade, listed_limits.1, listed_limits.2] at hexact
    exact hdiffers hexact
  · rintro hundistorted data' request' hb' hp' h'
    rw [requestFromDict_allowed h', hb', hp']
    rcases hundistorted with ⟨hx, hy⟩ | ⟨hx, hy, hxs, hys⟩
    · rw [hx, hy]
    · rw [hx, hy, Int.cast_zero]
      exact iff_of_true (request'.allows_of_nonpos le_rfl le_rfl)
        (request'.allows_of_nonpos hxs hys)

/-! ## A fraction that is dropped -/

namespace Sample

def event (kind : EventKind) (amount : Json) : Json :=
  .obj [("kind", .str kind.value), ("amount", amount)]

section Events

variable {kind : EventKind} {amount : Json} {items : List Json} {n : ℕ}

theorem releaseEvent_event (h : int amount = .ok n) :
    releaseEvent (event kind amount) = .ok ⟨kind, n, Int.natCast_nonneg n⟩ := by
  have hkind : EventKind.of (.str kind.value) = .ok kind := by cases kind <;> rfl
  simp [releaseEvent, event, item, List.lookup_cons, hkind, okOr, h, bind, Except.bind]

theorem counted_event : counted (event kind amount :: items) =
    if kind = .EQUAL_OR_STRICTER_LOCK_MIGRATION then counted items
    else amount :: counted items := by
  have hkind : (event kind amount).get "kind" = .str kind.value := rfl
  have hamount : (event kind amount).get "amount" = amount := rfl
  have hexempt : ((event kind amount).get "kind").asStr? =
      some EventKind.EQUAL_OR_STRICTER_LOCK_MIGRATION.value ↔
        kind = .EQUAL_OR_STRICTER_LOCK_MIGRATION := by
    rw [hkind, Json.asStr?, Option.some_inj, EventKind.value_inj]
  by_cases h : kind = .EQUAL_OR_STRICTER_LOCK_MIGRATION
  · rw [if_pos h, counted, List.filter_cons_of_neg (by simpa using hexempt.mpr h)]
    rfl
  · rw [if_neg h, counted, List.filter_cons_of_pos (by simpa using mt hexempt.mp h), List.map_cons,
      hamount]
    rfl

theorem statedRelease_event : statedRelease (event kind amount :: items) =
    (if kind = .EQUAL_OR_STRICTER_LOCK_MIGRATION then 0 else stated amount) +
      statedRelease items := by
  unfold statedRelease
  rw [counted_event]
  split <;> simp

theorem wholeRelease_event : wholeRelease (event kind amount :: items) =
    (if kind = .EQUAL_OR_STRICTER_LOCK_MIGRATION then 0 else truncate (stated amount)) +
      wholeRelease items := by
  unfold wholeRelease
  rw [counted_event]
  split <;> simp

theorem release_nil : statedRelease [] = 0 ∧ wholeRelease [] = 0 := ⟨rfl, rfl⟩

end Events

/-- A month in which the purpose vault may release one unit, and is to release the amount. -/
def month (amount : Json) : List (String × Json) := limits 0 1 1 none [] [event .SALE amount]

theorem requestFromDict_month {amount : Json} (h : int amount = .ok (1 : ℕ)) :
    requestFromDict (month amount) =
      .ok { limitFields 0 1 1 none [] [⟨.SALE, (1 : ℕ), by decide⟩] with
        valid := limitFields_valid (by simp) } := by
  refine requestFromDict_limits rfl ?_ (by simp)
  rw [List.mapM_cons, releaseEvent_event h]
  rfl

theorem int_fraction : int (.real (19 / 10)) = .ok (1 : ℕ) := by
  have hfloor : ⌊(19 / 10 : ℚ)⌋ = 1 := by norm_num
  rw [int, truncate, if_pos (by norm_num), hfloor]
  rfl

theorem allowed_month {amount : Json} {request : ReleaseRequest} (h : int amount = .ok (1 : ℕ))
    (hr : requestFromDict (month amount) = .ok request) : (evaluateRelease request).allowed := by
  rw [requestFromDict_month h] at hr
  rw [evaluateRelease_allowed, ← Except.ok.inj hr, limitFields_allows]
  simp [limitFields, netRelease]

/-- A grant, and a migration of `1.9` that does not count. -/
def granted : List Json :=
  [event .GRANT (.int 3), event .EQUAL_OR_STRICTER_LOCK_MIGRATION (.real (19 / 10))]

def traded : List Json := [event .SALE (.str "2"), event .OTC (.bool true)]

theorem requestFromDict_months (b : ℕ) : ∃ request,
    requestFromDict (limits b 3 6 none granted traded) = .ok request := by
  have hgranted : granted.mapM releaseEvent = .ok [⟨.GRANT, (3 : ℕ), by decide⟩,
      ⟨.EQUAL_OR_STRICTER_LOCK_MIGRATION, (1 : ℕ), by decide⟩] := by
    rw [granted, List.mapM_cons, releaseEvent_event rfl, List.mapM_cons,
      releaseEvent_event int_fraction]
    rfl
  have htraded : traded.mapM releaseEvent = .ok [⟨.SALE, (2 : ℕ), by decide⟩,
      ⟨.OTC, (1 : ℕ), by decide⟩] := by
    rw [traded, List.mapM_cons, releaseEvent_event (n := 2) (by decide +kernel), List.mapM_cons,
      releaseEvent_event (n := 1) rfl]
    rfl
  exact ⟨_, requestFromDict_limits hgranted htraded (by simp)⟩

end Sample

/-- The decisions on two requests with the same events, one within its limits. -/
theorem requestFromDict_sample : ∃ r r',
    requestFromDict (limits 3 3 6 none Sample.granted Sample.traded) = .ok r ∧
      requestFromDict (limits 2 3 6 none Sample.granted Sample.traded) = .ok r' ∧
      ((evaluateRelease r).allowed ↔
        r.Allows (statedRelease Sample.granted) (statedRelease Sample.traded)) ∧
      ((evaluateRelease r').allowed ↔
        r'.Allows (statedRelease Sample.granted) (statedRelease Sample.traded)) := by
  obtain ⟨r, hr⟩ := Sample.requestFromDict_months 3
  obtain ⟨r', hr'⟩ := Sample.requestFromDict_months 2
  have hgranted : (wholeRelease Sample.granted : ℚ) = statedRelease Sample.granted := by
    simp [Sample.granted, Sample.statedRelease_event, Sample.wholeRelease_event,
      Sample.release_nil, stated, truncate]
  have htraded : (wholeRelease Sample.traded : ℚ) = statedRelease Sample.traded := by
    simp [Sample.traded, Sample.statedRelease_event, Sample.wholeRelease_event,
      Sample.release_nil, stated, truncate]
  have hlisted : ∀ b, listed (limits b 3 6 none Sample.granted Sample.traded)
      "beneficiary_events" = Sample.granted ∧
        listed (limits b 3 6 none Sample.granted Sample.traded) "purpose_events" = Sample.traded :=
    fun _ ↦ listed_limits
  have hexact := (requestFromDict_exact hr).mpr
    (.inl (by rw [(hlisted 3).1, (hlisted 3).2]; exact ⟨hgranted, htraded⟩))
  rw [(hlisted 3).1, (hlisted 3).2] at hexact
  exact ⟨r, r', hr, hr', hexact _ _ (hlisted 3).1 (hlisted 3).2 hr,
    hexact _ _ (hlisted 2).1 (hlisted 2).2 hr'⟩

/-- A purpose vault that may release one unit is allowed a sale of `1.9`. -/
theorem requestFromDict_truncates : ∃ request,
    requestFromDict (Sample.month (.real (19 / 10))) = .ok request ∧
      (evaluateRelease request).allowed = true ∧
        ¬ request.Allows (statedRelease [])
          (statedRelease [Sample.event .SALE (.real (19 / 10))]) := by
  have h : requestFromDict (Sample.month (.real (19 / 10))) = _ :=
    Sample.requestFromDict_month Sample.int_fraction
  refine ⟨_, h, Sample.allowed_month Sample.int_fraction h, fun hallows ↦ ?_⟩
  have hpurpose := (limitFields_allows.mp hallows).2.1
  rw [Sample.statedRelease_event, if_neg (by decide), stated, Sample.release_nil.1] at hpurpose
  norm_num at hpurpose

end FundingVaults.Covenant
