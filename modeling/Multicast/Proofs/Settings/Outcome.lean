import Multicast.Proofs.Settings.Number

/-! What becomes of the variables. They are refused if the policy is unknown or a period is zero,
and the error is the first of these in the order of the checks. If they are not refused, each
setting comes from its own variable, and the registry gets a configuration that it can run with. -/

namespace Multicast

/-- Whether a text names the policy, in upper or lower case. -/
def StalePolicy.IsNamed (p : StalePolicy) (s : String) : Prop :=
  Text.lowerCase s = p.name ∨ Text.lowerCase s = p.longName

theorem StalePolicy.IsNamed.unique {p q : StalePolicy} {s : String} (hp : p.IsNamed s)
    (hq : q.IsNamed s) : p = q := by
  have hnames : ∀ p q : StalePolicy, p = q ∨ p.name ≠ q.name ∧ p.name ≠ q.longName ∧
      p.longName ≠ q.name ∧ p.longName ≠ q.longName := by
    rintro (_ | _) (_ | _) <;> decide
  obtain hpq | ⟨h₁, h₂, h₃, h₄⟩ := hnames p q
  · exact hpq
  · rcases hp with hp | hp <;> rcases hq with hq | hq <;> simp_all

theorem StalePolicy.ofText_eq_ok_iff {p : StalePolicy} {s : String} :
    StalePolicy.ofText s = .ok p ↔ p.IsNamed s := by
  have hmem : ∀ q : StalePolicy, q ∈ all := by rintro (_ | _) <;> decide
  rw [ofText]
  split
  · next q heq =>
    have hq : q.IsNamed s := by simpa [IsNamed] using List.find?_some heq
    exact ⟨fun h => Except.ok.inj h ▸ hq, fun hp => congrArg Except.ok (hq.unique hp)⟩
  · next heq =>
    have hnone := List.find?_eq_none.mp heq p (hmem p)
    simpa [IsNamed] using hnone

theorem StalePolicy.ofText_eq_error_iff {s : String} :
    (∃ e, StalePolicy.ofText s = .error e) ↔ ∀ p : StalePolicy, ¬ p.IsNamed s := by
  simp only [← ofText_eq_ok_iff]
  cases StalePolicy.ofText s <;> simp

theorem Duration.inNanos_pos_iff {d : Duration} : 0 < d.inNanos ↔ d.isZero = false := by
  simp only [inNanos, isZero, Bool.and_eq_false_iff, beq_eq_false_iff_ne]
  omega

/-- The variable that an error is about. -/
def SettingError.key : SettingError → String
  | .invalidValue key _ => key
  | .zeroDuration key => key

namespace Settings

/-- The variables of the periods that must not be zero. -/
def periodKeys : List String := [sweepIntervalKey, pingIntervalKey, tickIntervalKey]

/-- The place of an error in the order in which the variables are checked. -/
def place (e : SettingError) : Nat := (stalePolicyKey :: periodKeys).idxOf e.key

/-- What is wrong with the variables: the policy is set to a text that names none, which the error
shows as it was given, or a period is set to zero. -/
inductive Offence (lookup : Lookup) : SettingError → Prop
  | policy {v : String} (hset : lookup stalePolicyKey = some v)
      (hnone : ∀ p : StalePolicy, ¬ p.IsNamed v) : Offence lookup (.invalidValue stalePolicyKey v)
  | zero {key v : String} (hkey : key ∈ periodKeys) (hset : lookup key = some v)
      (hzero : Spells v 0) : Offence lookup (.zeroDuration key)

/-- The setting is what `ofNumber` makes of the number that the variable spells, if this fits the
width, and the default if the variable is not set or has no such number. -/
structure Takes {α : Type} (lookup : Lookup) (key : String) (width : Nat) (ofNumber : Nat → α)
    (default value : α) : Prop where
  number : ∀ v n, lookup key = some v → Spells v n → n < 2 ^ width → value = ofNumber n
  default : (∀ v n, lookup key = some v → Spells v n → 2 ^ width ≤ n) → value = default

/-- Where each of the settings comes from. -/
structure Values (lookup : Lookup) (s : Settings) : Prop where
  stalePolicy : ∀ v, lookup stalePolicyKey = some v → s.stream.stalePolicy.IsNamed v
  noStalePolicy : lookup stalePolicyKey = none → s.stream.stalePolicy = .older
  sweepInterval : Takes lookup sweepIntervalKey 64 .ofMillis (.ofSeconds 10) s.stream.sweepInterval
  pingEnabled : ∀ v, lookup pingEnabledKey = some v →
    (s.stream.pingEnabled ↔ Text.lowerCase (Text.trim v) ∈ ["true", "1", "yes"])
  noPingEnabled : lookup pingEnabledKey = none → s.stream.pingEnabled = false
  pingInterval : Takes lookup pingIntervalKey 64 .ofMillis (.ofSeconds 30) s.stream.pingInterval
  removalTimeout :
    Takes lookup removalTimeoutKey 64 .ofSeconds (.ofSeconds 60) s.stream.removalTimeout
  queueCapacity : Takes lookup queueCapacityKey 64 (max · 1) Heap.defaultCapacity
    s.stream.queueCapacity
  metricsPort : Takes lookup metricsPortKey 16 id 9090 s.metricsPort
  subscribers : Takes lookup subscribersKey 64 id 3 s.demo.subscribers
  tickInterval : Takes lookup tickIntervalKey 64 .ofMillis (.ofMillis 250) s.demo.tickInterval

/-- Two sets of variables give the same settings wherever they agree. -/
structure Independent (lookup lookup' : Lookup) (s s' : Settings) : Prop where
  stalePolicy : lookup stalePolicyKey = lookup' stalePolicyKey →
    s.stream.stalePolicy = s'.stream.stalePolicy
  sweepInterval : lookup sweepIntervalKey = lookup' sweepIntervalKey →
    s.stream.sweepInterval = s'.stream.sweepInterval
  pingEnabled : lookup pingEnabledKey = lookup' pingEnabledKey →
    s.stream.pingEnabled = s'.stream.pingEnabled
  pingInterval : lookup pingIntervalKey = lookup' pingIntervalKey →
    s.stream.pingInterval = s'.stream.pingInterval
  removalTimeout : lookup removalTimeoutKey = lookup' removalTimeoutKey →
    s.stream.removalTimeout = s'.stream.removalTimeout
  queueCapacity : lookup queueCapacityKey = lookup' queueCapacityKey →
    s.stream.queueCapacity = s'.stream.queueCapacity
  metricsPort : lookup metricsPortKey = lookup' metricsPortKey → s.metricsPort = s'.metricsPort
  subscribers : lookup subscribersKey = lookup' subscribersKey →
    s.demo.subscribers = s'.demo.subscribers
  tickInterval : lookup tickIntervalKey = lookup' tickIntervalKey →
    s.demo.tickInterval = s'.demo.tickInterval

/-! ### The checks -/

section Checks

variable {lookup : Lookup} {key v : String} {e : SettingError} {d default : Duration}

theorem stalePolicy_eq_ok_iff {p : StalePolicy} : stalePolicy lookup = .ok p ↔
    (lookup stalePolicyKey = none ∧ p = .older) ∨
      ∃ v, lookup stalePolicyKey = some v ∧ p.IsNamed v := by
  rw [stalePolicy]
  cases hset : lookup stalePolicyKey with
  | none => simp [eq_comm]
  | some v =>
    simp only [reduceCtorEq, false_and, Option.some.injEq, exists_eq_left', false_or,
      ← StalePolicy.ofText_eq_ok_iff]
    cases StalePolicy.ofText v <;> simp

theorem stalePolicy_eq_error_iff : stalePolicy lookup = .error e ↔
    ∃ v, lookup stalePolicyKey = some v ∧ (∀ p : StalePolicy, ¬ p.IsNamed v) ∧
      e = .invalidValue stalePolicyKey v := by
  rw [stalePolicy]
  cases hset : lookup stalePolicyKey with
  | none => simp
  | some v =>
    simp only [Option.some.injEq, exists_eq_left', ← StalePolicy.ofText_eq_error_iff]
    cases StalePolicy.ofText v <;> simp [eq_comm]

/-- A setting that is made of the number in its variable takes this number or the default. -/
theorem takes_number {α : Type} (lookup : Lookup) (key : String) (width : Nat)
    (ofNumber : Nat → α) (default : α) :
    Takes lookup key width ofNumber default
      ((((lookup key).bind (number? width)).map ofNumber).getD default) where
  number v n hset hn hbound := by
    rw [hset, Option.bind_some, number?_eq_some_iff.mpr ⟨hn, hbound⟩, Option.map_some,
      Option.getD_some]
  default hlarge := by
    cases hset : lookup key with
    | none => rfl
    | some v => rw [Option.bind_some, number?_eq_none_iff.mpr (hlarge v · hset)]; rfl

theorem takes_millis (lookup : Lookup) (key : String) (default : Duration) :
    Takes lookup key 64 .ofMillis default (millis lookup key default) :=
  takes_number lookup key 64 .ofMillis default

theorem takes_natural (lookup : Lookup) (key : String) (width default : Nat) :
    Takes lookup key width id default (natural lookup key width default) := by
  have htakes := takes_number lookup key width id default
  rwa [Option.map_id] at htakes

theorem Takes.map {α β : Type} {width : Nat} {ofNumber : Nat → α} {default value : α}
    {default' : β} (f : α → β) (hdefault : f default = default')
    (h : Takes lookup key width ofNumber default value) :
    Takes lookup key width (f ∘ ofNumber) default' (f value) where
  number v n hset hn hbound := congrArg f (h.number v n hset hn hbound)
  default hlarge := (congrArg f (h.default hlarge)).trans hdefault

theorem isZero_ofMillis {m : Nat} : (Duration.ofMillis m).isZero ↔ m = 0 := by
  simp only [Duration.isZero, Duration.ofMillis, Bool.and_eq_true, beq_iff_eq]
  omega

/-- A period is refused only if its variable spells zero; its default is never zero. -/
theorem isZero_millis_iff (hdefault : default.isZero = false) :
    (millis lookup key default).isZero ↔ ∃ v, lookup key = some v ∧ Spells v 0 := by
  have htakes := takes_millis lookup key default
  constructor
  · intro hzero
    by_contra hnone
    by_cases hnumber : ∃ v n, lookup key = some v ∧ Spells v n ∧ n < 2 ^ 64
    · obtain ⟨v, n, hset, hn, hbound⟩ := hnumber
      rw [htakes.number v n hset hn hbound, isZero_ofMillis] at hzero
      exact hnone ⟨v, hset, hzero ▸ hn⟩
    · rw [htakes.default fun v n hset hn => Nat.le_of_not_lt fun hbound =>
        hnumber ⟨v, n, hset, hn, hbound⟩, hdefault] at hzero
      exact Bool.false_ne_true hzero
  · rintro ⟨v, hset, hn⟩
    rw [htakes.number v 0 hset hn (by decide)]
    rfl

theorem period_eq_ok_iff : period lookup key default = .ok d ↔
    d = millis lookup key default ∧ d.isZero = false := by
  rw [period]
  by_cases hzero : (millis lookup key default).isZero
  · rw [if_pos hzero]
    refine iff_of_false nofun ?_
    rintro ⟨rfl, hpos⟩
    exact absurd hzero (Bool.eq_false_iff.mp hpos)
  · rw [if_neg hzero, Except.ok.injEq]
    refine ⟨?_, fun h => h.1.symm⟩
    rintro rfl
    exact ⟨rfl, Bool.eq_false_iff.mpr hzero⟩

theorem period_eq_error_iff (hdefault : default.isZero = false) :
    period lookup key default = .error e ↔
      (∃ v, lookup key = some v ∧ Spells v 0) ∧ e = .zeroDuration key := by
  rw [← isZero_millis_iff hdefault, period]
  split
  · next hzero => simp [hzero, eq_comm]
  · next hzero => simp [hzero]

end Checks

/-- The error with which a check ends, if it does. -/
def failure {α : Type} : Except SettingError α → Option SettingError
  | .ok _ => none
  | .error e => some e

/-- What the check at a place finds. -/
def check (lookup : Lookup) : Nat → Option SettingError
  | 0 => failure (stalePolicy lookup)
  | 1 => failure (period lookup sweepIntervalKey (.ofSeconds 10))
  | 2 => failure (period lookup pingIntervalKey (.ofSeconds 30))
  | 3 => failure (period lookup tickIntervalKey (.ofMillis 250))
  | _ => none

/-! ### The outcome -/

section Outcome

variable {lookup lookup' : Lookup} {s s' : Settings} {e : SettingError} {key : String}
  {default : Duration}

/-- The settings that the variables give if nothing is wrong with them. -/
theorem ofLookup_eq_ok_iff : ofLookup lookup = .ok s ↔
    stalePolicy lookup = .ok s.stream.stalePolicy ∧
    period lookup sweepIntervalKey (.ofSeconds 10) = .ok s.stream.sweepInterval ∧
    period lookup pingIntervalKey (.ofSeconds 30) = .ok s.stream.pingInterval ∧
    period lookup tickIntervalKey (.ofMillis 250) = .ok s.demo.tickInterval ∧
    switch lookup pingEnabledKey false = s.stream.pingEnabled ∧
    seconds lookup removalTimeoutKey (.ofSeconds 60) = s.stream.removalTimeout ∧
    max (natural lookup queueCapacityKey 64 Heap.defaultCapacity) 1 = s.stream.queueCapacity ∧
    natural lookup metricsPortKey 16 9090 = s.metricsPort ∧
    natural lookup subscribersKey 64 3 = s.demo.subscribers := by
  rw [ofLookup]
  cases hpolicy : stalePolicy lookup with
  | error e => simp [bind, Except.bind]
  | ok policy =>
  cases hsweep : period lookup sweepIntervalKey (.ofSeconds 10) with
  | error e => simp [bind, Except.bind]
  | ok sweep =>
  cases hping : period lookup pingIntervalKey (.ofSeconds 30) with
  | error e => simp [bind, Except.bind]
  | ok ping =>
  cases htick : period lookup tickIntervalKey (.ofMillis 250) with
  | error e => simp [bind, Except.bind]
  | ok tick =>
    obtain ⟨⟨_, _, _, _, _, _⟩, _, ⟨_, _⟩⟩ := s
    simp [bind, Except.bind, pure, Except.pure]
    tauto

theorem failure_eq_some_iff {α : Type} {x : Except SettingError α} :
    failure x = some e ↔ x = .error e := by
  cases x <;> simp [failure]

/-- What the check of a period finds. -/
theorem failure_period_eq_some_iff (hkey : key ∈ periodKeys) (hdefault : default.isZero = false) :
    failure (period lookup key default) = some e ↔
      Offence lookup e ∧ e = .zeroDuration key := by
  rw [failure_eq_some_iff, period_eq_error_iff hdefault]
  constructor
  · rintro ⟨⟨v, hset, hzero⟩, rfl⟩
    exact ⟨.zero hkey hset hzero, rfl⟩
  · rintro ⟨hoffence, rfl⟩
    obtain _ | ⟨-, hset, hzero⟩ := hoffence
    exact ⟨⟨_, hset, hzero⟩, rfl⟩

theorem failure_stalePolicy_eq_some_iff :
    failure (stalePolicy lookup) = some e ↔ Offence lookup e ∧ e.key = stalePolicyKey := by
  rw [failure_eq_some_iff, stalePolicy_eq_error_iff]
  constructor
  · rintro ⟨v, hset, hnone, rfl⟩
    exact ⟨.policy hset hnone, rfl⟩
  · rintro ⟨⟨hset, hnone⟩ | ⟨hkey, -, -⟩, heq⟩
    · exact ⟨_, hset, hnone, rfl⟩
    · have hother : stalePolicyKey ∉ periodKeys := by decide
      exact absurd (heq ▸ hkey : stalePolicyKey ∈ periodKeys) hother

theorem place_zeroDuration : place (.zeroDuration sweepIntervalKey) = 1 ∧
    place (.zeroDuration pingIntervalKey) = 2 ∧ place (.zeroDuration tickIntervalKey) = 3 := by
  decide

/-- The offences are what the checks find, each at the place of its variable. -/
theorem check_place (h : Offence lookup e) : check lookup (place e) = some e := by
  obtain ⟨hsweep, hping, htick⟩ := place_zeroDuration
  cases h with
  | policy hset hnone => exact failure_stalePolicy_eq_some_iff.mpr ⟨.policy hset hnone, rfl⟩
  | zero hkey hset hzero =>
    have hoffence := Offence.zero hkey hset hzero
    simp only [periodKeys, List.mem_cons, List.not_mem_nil, or_false] at hkey
    rcases hkey with rfl | rfl | rfl
    · rw [hsweep]
      exact (failure_period_eq_some_iff (by decide) rfl).mpr ⟨hoffence, rfl⟩
    · rw [hping]
      exact (failure_period_eq_some_iff (by decide) rfl).mpr ⟨hoffence, rfl⟩
    · rw [htick]
      exact (failure_period_eq_some_iff (by decide) rfl).mpr ⟨hoffence, rfl⟩

theorem offence_of_check {k : Nat} (h : check lookup k = some e) :
    Offence lookup e ∧ k = place e := by
  obtain ⟨hsweep, hping, htick⟩ := place_zeroDuration
  match k, h with
  | 0, h =>
    obtain ⟨hoffence, hkey⟩ := failure_stalePolicy_eq_some_iff.mp h
    exact ⟨hoffence, by rw [place, hkey]; rfl⟩
  | 1, h =>
    obtain ⟨hoffence, rfl⟩ := (failure_period_eq_some_iff (by decide) rfl).mp h
    exact ⟨hoffence, hsweep.symm⟩
  | 2, h =>
    obtain ⟨hoffence, rfl⟩ := (failure_period_eq_some_iff (by decide) rfl).mp h
    exact ⟨hoffence, hping.symm⟩
  | 3, h =>
    obtain ⟨hoffence, rfl⟩ := (failure_period_eq_some_iff (by decide) rfl).mp h
    exact ⟨hoffence, htick.symm⟩

theorem bind_eq_error_iff {α β : Type} {x : Except SettingError α}
    {f : α → Except SettingError β} :
    (x >>= f) = .error e ↔ x = .error e ∨ ∃ a, x = .ok a ∧ f a = .error e := by
  cases x <;> simp [bind, Except.bind]

/-- The error is what the first check with a finding has found. -/
theorem exists_first_check (h : ofLookup lookup = .error e) :
    ∃ k, check lookup k = some e ∧ ∀ j < k, check lookup j = none := by
  rw [ofLookup] at h
  obtain hpolicy | ⟨policy, hpolicy, h⟩ := bind_eq_error_iff.mp h
  · exact ⟨0, failure_eq_some_iff.mpr hpolicy, nofun⟩
  have hzero : check lookup 0 = none := by rw [check, hpolicy]; rfl
  have hbelow₁ : ∀ j < 1, check lookup j = none := Nat.forall_lt_succ_right.mpr ⟨nofun, hzero⟩
  obtain hsweep | ⟨sweep, hsweep, h⟩ := bind_eq_error_iff.mp h
  · exact ⟨1, failure_eq_some_iff.mpr hsweep, hbelow₁⟩
  have hone : check lookup 1 = none := by rw [check, hsweep]; rfl
  have hbelow₂ : ∀ j < 2, check lookup j = none := Nat.forall_lt_succ_right.mpr ⟨hbelow₁, hone⟩
  obtain hping | ⟨ping, hping, h⟩ := bind_eq_error_iff.mp h
  · exact ⟨2, failure_eq_some_iff.mpr hping, hbelow₂⟩
  have htwo : check lookup 2 = none := by rw [check, hping]; rfl
  obtain htick | ⟨tick, htick, h⟩ := bind_eq_error_iff.mp h
  · exact ⟨3, failure_eq_some_iff.mpr htick, Nat.forall_lt_succ_right.mpr ⟨hbelow₂, htwo⟩⟩
  · cases h

theorem check_of_ok (h : ofLookup lookup = .ok s) (k : Nat) : check lookup k = none := by
  obtain ⟨hpolicy, hsweep, hping, htick, -⟩ := ofLookup_eq_ok_iff.mp h
  match k with
  | 0 => rw [check, hpolicy, failure]
  | 1 => rw [check, hsweep, failure]
  | 2 => rw [check, hping, failure]
  | 3 => rw [check, htick, failure]
  | _ + 4 => rfl

theorem not_offence_of_ok (h : ofLookup lookup = .ok s) : ¬ Offence lookup e := fun hoffence =>
  Option.some_ne_none e ((check_place hoffence).symm.trans (check_of_ok h _))

/-- The error is the offence with the first place. -/
theorem ofLookup_eq_error_iff : ofLookup lookup = .error e ↔
    Offence lookup e ∧ ∀ e', Offence lookup e' → place e ≤ place e' := by
  have hfirst : ∀ {e}, ofLookup lookup = .error e →
      Offence lookup e ∧ ∀ e', Offence lookup e' → place e ≤ place e' := by
    intro e h
    obtain ⟨k, hk, hnone⟩ := exists_first_check h
    obtain ⟨hoffence, rfl⟩ := offence_of_check hk
    refine ⟨hoffence, fun e' he' => Nat.le_of_not_lt fun hlt => ?_⟩
    exact Option.some_ne_none e' ((check_place he').symm.trans (hnone _ hlt))
  refine ⟨hfirst, fun ⟨hoffence, hleast⟩ => ?_⟩
  cases houtcome : ofLookup lookup with
  | ok s => exact absurd hoffence (not_offence_of_ok houtcome)
  | error e' =>
    -- two offences with one place are the finding of one check
    obtain ⟨hoffence', hleast'⟩ := hfirst houtcome
    have hplace : place e = place e' := Nat.le_antisymm (hleast e' hoffence') (hleast' e hoffence)
    have hcheck := check_place hoffence
    rw [hplace, check_place hoffence'] at hcheck
    rw [Option.some.inj hcheck]

/-! ### The settings -/

theorem values_of_ok (h : ofLookup lookup = .ok s) : Values lookup s := by
  obtain ⟨hpolicy, hsweep, hping, htick, hswitch, htimeout, hcapacity, hport, hsubscribers⟩ :=
    ofLookup_eq_ok_iff.mp h
  have hpolicy' := stalePolicy_eq_ok_iff.mp hpolicy
  exact {
    stalePolicy := by
      intro v hset
      obtain ⟨hnone, -⟩ | ⟨v', hset', hnamed⟩ := hpolicy'
      · exact absurd (hset.symm.trans hnone) (Option.some_ne_none v)
      · rwa [Option.some.inj (hset.symm.trans hset')]
    noStalePolicy := by
      intro hnone
      obtain ⟨-, holder⟩ | ⟨v, hset, -⟩ := hpolicy'
      · exact holder
      · exact absurd (hset.symm.trans hnone) (Option.some_ne_none v)
    sweepInterval := (period_eq_ok_iff.mp hsweep).1 ▸ takes_millis ..
    pingEnabled := by
      intro v hset
      rw [← hswitch, switch, hset, Option.map_some, Option.getD_some, flag, List.contains_iff_mem]
    noPingEnabled := by
      intro hnone
      rw [← hswitch, switch, hnone, Option.map_none, Option.getD_none]
    pingInterval := (period_eq_ok_iff.mp hping).1 ▸ takes_millis ..
    removalTimeout := htimeout ▸ takes_number ..
    queueCapacity := hcapacity ▸ (takes_natural ..).map (max · 1) rfl
    metricsPort := hport ▸ takes_natural ..
    subscribers := hsubscribers ▸ takes_natural ..
    tickInterval := (period_eq_ok_iff.mp htick).1 ▸ takes_millis .. }

theorem stalePolicy_congr (h : lookup stalePolicyKey = lookup' stalePolicyKey) :
    stalePolicy lookup = stalePolicy lookup' := by
  rw [stalePolicy, stalePolicy, h]

theorem natural_congr (h : lookup key = lookup' key) (width default : Nat) :
    natural lookup key width default = natural lookup' key width default := by
  rw [natural, natural, h]

theorem millis_congr (h : lookup key = lookup' key) (default : Duration) :
    millis lookup key default = millis lookup' key default := by
  rw [millis, millis, h]

theorem seconds_congr (h : lookup key = lookup' key) (default : Duration) :
    seconds lookup key default = seconds lookup' key default := by
  rw [seconds, seconds, h]

theorem switch_congr (h : lookup key = lookup' key) (default : Bool) :
    switch lookup key default = switch lookup' key default := by
  rw [switch, switch, h]

theorem period_congr (h : lookup key = lookup' key) (default : Duration) :
    period lookup key default = period lookup' key default := by
  rw [period, period, millis_congr h]

theorem independent_of_ok (h : ofLookup lookup = .ok s) (h' : ofLookup lookup' = .ok s') :
    Independent lookup lookup' s s' := by
  obtain ⟨hpolicy, hsweep, hping, htick, hswitch, htimeout, hcapacity, hport, hsubscribers⟩ :=
    ofLookup_eq_ok_iff.mp h
  obtain ⟨hpolicy', hsweep', hping', htick', hswitch', htimeout', hcapacity', hport',
    hsubscribers'⟩ := ofLookup_eq_ok_iff.mp h'
  have ok_unique : ∀ {α : Type} {x y : Except SettingError α} {a b : α},
      x = y → x = .ok a → y = .ok b → a = b := by
    rintro α x y a b rfl hx hy
    exact Except.ok.inj (hx.symm.trans hy)
  exact {
    stalePolicy := fun heq => ok_unique (stalePolicy_congr heq) hpolicy hpolicy'
    sweepInterval := fun heq => ok_unique (period_congr heq _) hsweep hsweep'
    pingEnabled := fun heq => by rw [← hswitch, ← hswitch', switch_congr heq]
    pingInterval := fun heq => ok_unique (period_congr heq _) hping hping'
    removalTimeout := fun heq => by rw [← htimeout, ← htimeout', seconds_congr heq]
    queueCapacity := fun heq => by rw [← hcapacity, ← hcapacity', natural_congr heq]
    metricsPort := fun heq => by rw [← hport, ← hport', natural_congr heq]
    subscribers := fun heq => by rw [← hsubscribers, ← hsubscribers', natural_congr heq]
    tickInterval := fun heq => ok_unique (period_congr heq _) htick htick' }

end Outcome

end Settings

/-- A configuration that a registry can run with: no period is zero, there is room in a queue, and
there are pings if they are wanted. -/
structure Config.Runs (c : Config) (pings : Bool) : Prop where
  sweepInterval : 0 < c.sweepInterval.inNanos
  pingInterval : ∀ p, c.pingInterval = some p → 0 < p.inNanos
  queueCapacity : 1 ≤ c.queueCapacity
  pings : c.pingInterval.isSome ↔ pings

namespace Settings

theorem runs_of_ok {lookup : Lookup} {s : Settings} (h : ofLookup lookup = .ok s) :
    s.stream.config.Runs s.stream.pingEnabled := by
  obtain ⟨-, hsweep, hping, -, -, -, hcapacity, -⟩ := ofLookup_eq_ok_iff.mp h
  have hping' := Duration.inNanos_pos_iff.mpr (period_eq_ok_iff.mp hping).2
  exact {
    sweepInterval := Duration.inNanos_pos_iff.mpr (period_eq_ok_iff.mp hsweep).2
    pingInterval := by
      intro p hp
      rw [StreamSettings.config] at hp
      obtain ⟨-, heq⟩ := Option.ite_none_right_eq_some.mp hp
      exact Option.some.inj heq ▸ hping'
    queueCapacity := (Nat.le_max_right _ 1).trans_eq hcapacity
    pings := by
      rw [StreamSettings.config]
      cases s.stream.pingEnabled <;> simp }

/-- The outcome for any variables. They are refused if and only if something is wrong with them,
and the error is the first offence, whether or not the pings are wanted; otherwise each setting has
the value of its own variable or its default, and the registry can run. -/
theorem outcome_of_lookup (lookup : Lookup) :
    (∀ e, ofLookup lookup = .error e ↔
      Offence lookup e ∧ ∀ e', Offence lookup e' → place e ≤ place e') ∧
    ((∃ e, ofLookup lookup = .error e) ↔
      (∃ v, lookup stalePolicyKey = some v ∧ ∀ p : StalePolicy, ¬ p.IsNamed v) ∨
      ∃ key ∈ periodKeys, ∃ v, lookup key = some v ∧ Spells v 0) ∧
    ((∀ e, ¬ Offence lookup e) ↔ ∃ s, ofLookup lookup = .ok s) ∧
    ∀ s, ofLookup lookup = .ok s →
      Values lookup s ∧ s.stream.config.Runs s.stream.pingEnabled ∧
      ∀ lookup' s', ofLookup lookup' = .ok s' → Independent lookup lookup' s s' := by
  have hoffence : (∃ e, ofLookup lookup = .error e) ↔ ∃ e, Offence lookup e := by
    constructor
    · exact fun ⟨e, he⟩ => ⟨e, (ofLookup_eq_error_iff.mp he).1⟩
    · rintro ⟨e, he⟩
      cases houtcome : ofLookup lookup with
      | ok s => exact absurd he (not_offence_of_ok houtcome)
      | error e' => exact ⟨e', rfl⟩
  refine ⟨fun e => ofLookup_eq_error_iff, ?refused, ?taken, fun s hs =>
    ⟨values_of_ok hs, runs_of_ok hs, fun lookup' s' hs' => independent_of_ok hs hs'⟩⟩
  case refused =>
    rw [hoffence]
    constructor
    · rintro ⟨e, ⟨hset, hnone⟩ | ⟨hkey, hset, hzero⟩⟩
      · exact .inl ⟨_, hset, hnone⟩
      · exact .inr ⟨_, hkey, _, hset, hzero⟩
    · rintro (⟨v, hset, hnone⟩ | ⟨key, hkey, v, hset, hzero⟩)
      · exact ⟨_, .policy hset hnone⟩
      · exact ⟨_, .zero hkey hset hzero⟩
  case taken =>
    rw [← not_exists, ← hoffence]
    cases ofLookup lookup <;> simp

/-- Of two periods that are zero, the one that is checked first is the error; that there are to be
no pings does not matter. -/
example : ofLookup (fun key => if key = sweepIntervalKey then none else
      if key = stalePolicyKey then some "NOT-AFTER" else some "0") =
    .error (.zeroDuration pingIntervalKey) := by
  decide +kernel

end Settings

end Multicast
