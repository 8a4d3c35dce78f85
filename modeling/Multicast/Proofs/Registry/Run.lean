import Multicast.Proofs.Registry.Actions

/-! Every run of a registry. Each action that keeps to the terms leads a settled registry to a
settled one, and a new registry is settled; so what turns keep of a lane holds of every subscriber
after any list of actions. -/

namespace Multicast

variable {T : Terms} {r : Registry} {config : Config} {hooks : Hooks} {actions : List Action}

/-- The batch that an action publishes. -/
def Action.published? : Action → Option (Batch Nat)
  | .publishLive b | .publishHistorical b | .sendHistorical _ b => some b
  | _ => none

/-- Whether an action keeps to the terms: it publishes only what they admit, and drops the registry
or takes the right to wait for a worker only if they allow it. -/
structure Action.Keeps (T : Terms) (action : Action) : Prop where
  admits : ∀ b, action.published? = some b → T.admits b
  mayDrop : action = .drop → T.mayDrop
  mayJoin : T.mayJoin

/-- Whether an event is told at the start of a registry. -/
def Event.IsOpening : Event → Prop
  | .periodRaised .. | .started _ => True
  | _ => False

namespace Registry

/-! ### Each action -/

theorem reaches_apply_of (hr : Settled T r) {action : Action}
    (hb : ∀ b, action.published? = some b → T.admits b) (hd : action = .drop → T.mayDrop)
    (hj : r.Joins action → T.mayJoin) : Reaches T r (r.apply action) := by
  cases action with
  | run t =>
    show Reaches T r (if r.ready t then r.step t else r)
    split
    · rename_i hready
      exact reaches_step hr hready hj
    · exact .refl hr
  | tick i => exact reaches_tick hr i
  | elapse ms => exact reaches_beside hr (Nat.le_add_right _ ms) r.cancelledTokens
  | subscribe request => exact reaches_subscribe hr request
  | activate s => exact reaches_activate hr s
  | publishLive b => exact .of_turns hr (turns_publishLive (hb b rfl))
  | publishHistorical b => exact reaches_publishHistorical hr (hb b rfl)
  | sendHistorical s b => exact reaches_sendHistorical hr s (hb b rfl)
  | unsubscribe s => exact reaches_unsubscribe hr s (hj trivial)
  | sweep => exact reaches_sweep hr
  | ping => exact reaches_ping hr
  | stop => exact reaches_stop hr
  | drop => exact reaches_drop hr (hd rfl)
  | cancel token => exact reaches_beside hr (Nat.le_refl _) (token :: r.cancelledTokens)
  | release s o => exact reaches_release hr s o
  | receive s => exact reaches_receive hr s
  | dropReceiver s => exact reaches_dropReceiver hr s
  | awaitRemoval s => exact reaches_addCall hr rfl trivial rfl

theorem reaches_apply (hr : Settled T r) {action : Action} (h : action.Keeps T) :
    Reaches T r (r.apply action) :=
  reaches_apply_of hr h.admits h.mayDrop fun _ => h.mayJoin

theorem reaches_run (hr : Settled T r) (h : ∀ action ∈ actions, action.Keeps T) :
    Reaches T r (r.run actions) := by
  induction actions generalizing r with
  | nil => exact .refl hr
  | cons action rest ih =>
    have hfirst := reaches_apply hr (h action List.mem_cons_self)
    have hrest := ih hfirst.settled fun other hmem => h other (List.mem_cons_of_mem action hmem)
    exact hfirst.trans hrest

theorem run_append (r : Registry) (before after : List Action) :
    r.run (before ++ after) = (r.run before).run after := List.foldl_append

/-! ### The beginning -/

/-- A registry at its start, with loops that are idle. -/
def idle (config : Config) (hooks : Hooks) (loops : List Call) : Registry where
  config := config
  hooks := hooks
  calls := loops

theorem settled_idle {loops : List Call} (hp : T.policy = config.stalePolicy)
    (hh : T.process = hooks.process) (hd : ∀ c ∈ loops, c.directs = [])
    (hf : ∀ c ∈ loops, c.Fit T (idle config hooks loops))
    (hn : ∀ c ∈ loops, c.subscribed? = none) : Settled T (idle config hooks loops) := by
  have hnobody (s : SessionId) : (idle config hooks loops).session? s = none := rfl
  have haway (s : SessionId) (p : Party) : (idle config hooks loops).posts s p = .away := by
    cases p with
    | worker => rfl
    | call i =>
      cases hc : loops[i]? with
      | none => exact posts_of_no_call (List.getElem?_eq_none_iff.mp hc) s
      | some c => exact posts_of_no_directs hc (hd c (List.mem_of_getElem? hc)) s
  refine ⟨?_, fun c hc => Call.placed_of_directs_eq_nil (hd c hc) (hf c hc), ?_⟩
  · exact {
      policy := hp.symm
      process := hh.symm
      lawful := fun s x hx => absurd ((hnobody s).symm.trans hx) (Option.some_ne_none x).symm
      strangers := fun s _ => ⟨haway s, rfl⟩
      nodup := List.nodup_nil
      mem_iff := fun s => iff_of_false List.not_mem_nil fun ⟨x, hx, _⟩ =>
        absurd ((hnobody s).symm.trans hx) (Option.some_ne_none x).symm }
  · have hnone : (idle config hooks loops).subscribed = [] := List.filterMap_eq_nil_iff.mpr hn
    rw [hnone]
    exact .refl _

/-- The loops of a registry. -/
def loops (config : Config) : List Call :=
  .sweepLoop { period := config.sweepInterval.inNanos } ::
    (config.pingInterval.map fun p => Call.pingLoop { period := p.inNanos }).toList

theorem mem_loops {c : Call} (hc : c ∈ loops config) :
    (∃ period, c = .sweepLoop { period := period }) ∨
      ∃ period, c = .pingLoop { period := period } := by
  rcases List.mem_cons.mp hc with rfl | hc
  · exact .inl ⟨_, rfl⟩
  · obtain ⟨p, _, rfl⟩ := Option.map_eq_some_iff.mp (Option.mem_toList.mp hc)
    exact .inr ⟨_, rfl⟩

theorem settled_loops (hp : T.policy = config.stalePolicy) (hh : T.process = hooks.process) :
    Settled T (idle config hooks (loops config)) := by
  refine settled_idle hp hh ?_ ?_ ?_
  · intro c hc
    rcases mem_loops hc with ⟨_, rfl⟩ | ⟨_, rfl⟩
    · rfl
    · rfl
  · intro c hc
    rcases mem_loops hc with ⟨_, rfl⟩ | ⟨_, rfl⟩
    · trivial
    · exact nofun
  · intro c hc
    rcases mem_loops hc with ⟨_, rfl⟩ | ⟨_, rfl⟩
    · rfl
    · rfl

/-- A new registry is idle, and tells only of its start. -/
theorem exists_new_eq (config : Config) (hooks : Hooks) : ∃ es, (∀ e ∈ es, e.IsOpening) ∧
    new config hooks = { idle config.clamped hooks (loops config.clamped) with history := es } := by
  unfold new
  dsimp only
  split
  · split
    · split
      · exact ⟨[_, _, _], by simp [Event.IsOpening], rfl⟩
      · exact ⟨[_, _], by simp [Event.IsOpening], rfl⟩
    · split
      · exact ⟨[_, _], by simp [Event.IsOpening], rfl⟩
      · exact ⟨[_], by simp [Event.IsOpening], rfl⟩
  · split
    · exact ⟨[_, _], by simp [Event.IsOpening], rfl⟩
    · exact ⟨[_], by simp [Event.IsOpening], rfl⟩

/-- The events of the start concern no subscriber. -/
theorem settled_new (hp : T.policy = config.stalePolicy) (hh : T.process = hooks.process) :
    Settled T (new config hooks) := by
  -- raising the periods leaves the policy alone
  have hpolicy : T.policy = config.clamped.stalePolicy := by
    rw [hp, Config.clamped]
  obtain ⟨es, hes, hnew⟩ := exists_new_eq config hooks
  rw [hnew]
  clear hnew
  induction es with
  | nil => exact settled_loops hpolicy hh
  | cons e rest ih =>
    have hrest := ih fun a ha => hes a (List.mem_cons_of_mem e ha)
    have hmark : ∀ s, e.mark? s = none := by
      have he := hes e List.mem_cons_self
      cases e with
      | periodRaised | started => exact fun _ => rfl
      | _ => exact he.elim
    exact (Reaches.of_turns hrest ((Turns.refl _).note hmark)).settled

/-- Nobody has been registered yet, and nothing has been counted. -/
theorem new_blank (config : Config) (hooks : Hooks) : (new config hooks).sessions = [] ∧
    (new config hooks).members = [] ∧ (new config hooks).metrics = {} := by
  obtain ⟨es, -, hnew⟩ := exists_new_eq config hooks
  rw [hnew]
  exact ⟨rfl, rfl, rfl⟩

theorem session?_new (s : SessionId) : (new config hooks).session? s = none := by
  rw [session?, (new_blank config hooks).1]
  rfl

/-- Its loops wait, and it has not been stopped. -/
theorem new_idle (config : Config) (hooks : Hooks) : (new config hooks).hooks = hooks ∧
    (new config hooks).stopped = false ∧ (new config hooks).cancelledTokens = [] ∧
    (new config hooks).calls = loops config.clamped := by
  obtain ⟨es, -, hnew⟩ := exists_new_eq config hooks
  rw [hnew]
  exact ⟨rfl, rfl, rfl, rfl⟩

end Registry

/-! ### Whole runs -/

/-- What lawful lanes keep when they take a turn is kept along a chain of shifts. -/
theorem Shifts.lane_induction {I : Lane → Prop} (fresh : ∀ request room, I (.fresh request room))
    (turn : ∀ l l', l.Lawful T → I l → Lane.Turn T l l' → I l') {a b : Posted} (h : Shifts T a b)
    (hs : Sound T a) (hi : ∀ s x, a.registry.session? s = some x → I (a.lane s x)) :
    ∀ s y, b.registry.session? s = some y → I (b.lane s y) := by
  induction h with
  | refl => exact hi
  | tail hshifts hshift ih =>
    -- each shift keeps lawfulness along with the invariant, since turns ask for it
    have hsound := hs.shifts hshifts
    have hboth := hshift.lane_induction (I := fun l => l.Lawful T ∧ I l)
      (fun request room => ⟨Lane.lawful_fresh request room, fresh request room⟩)
      (fun l l' hl t => ⟨hl.1.turn t, turn l l' hl.1 hl.2 t⟩) hsound
      (fun s x hx => ⟨hsound.lawful s x hx, ih s x hx⟩)
    exact fun s y hy => (hboth s y hy).2

/-- What lawful lanes keep when they take a turn is kept for one subscriber along a chain of
shifts. -/
theorem Shifts.lane_keep {I : Lane → Prop}
    (turn : ∀ l l', l.Lawful T → I l → Lane.Turn T l l' → I l') {a b : Posted} (h : Shifts T a b)
    (hs : Sound T a) {s : SessionId} {x : Session} (hx : a.registry.session? s = some x)
    (hi : I (a.lane s x)) : ∃ y, b.registry.session? s = some y ∧ I (b.lane s y) := by
  induction h with
  | refl => exact ⟨x, hx, hi⟩
  | tail hshifts hshift ih =>
    obtain ⟨y, hy, hkept⟩ := ih
    have hlawful := (hs.shifts hshifts).lawful s y hy
    obtain ⟨z, hz, hstep⟩ := hshift.lane_step hy
    -- each turn keeps lawfulness along with the invariant, since the next one asks for it
    have hboth := Lane.keep_of_reflGen (I := fun l => l.Lawful T ∧ I l)
      (fun l l' hl t => ⟨hl.1.turn t, turn l l' hl.1 hl.2 t⟩) hstep ⟨hlawful, hkept⟩
    exact ⟨z, hz, hboth.2⟩

/-- The runs without a condition on what is published. -/
def Terms.any (config : Config) (hooks : Hooks) (mayDrop : Prop) : Terms where
  policy := config.stalePolicy
  process := hooks.process
  admits _ := True
  mayDrop := mayDrop
  mayJoin := True

theorem Action.keeps_any (action : Action) : action.Keeps (.any config hooks True) :=
  ⟨fun _ _ => trivial, fun _ => trivial, trivial⟩

namespace Registry

theorem settled_run (hp : T.policy = config.stalePolicy) (hh : T.process = hooks.process)
    (h : ∀ action ∈ actions, action.Keeps T) : Settled T ((new config hooks).run actions) :=
  (reaches_run (settled_new hp hh) h).settled

/-- Whatever the actions are, a settled registry comes by shifts to where they lead. -/
theorem reaches_any_run (hr : Settled (.any config hooks True) r) (actions : List Action) :
    Reaches (.any config hooks True) r (r.run actions) :=
  reaches_run hr fun action _ => action.keeps_any

theorem settled_any_run (config : Config) (hooks : Hooks) (actions : List Action) :
    Settled (.any config hooks True) ((new config hooks).run actions) :=
  settled_run rfl rfl fun action _ => action.keeps_any

/-- What lawful lanes keep when they take a turn holds of every subscriber in every run. -/
theorem run_lane_induction {I : Lane → Prop} (hp : T.policy = config.stalePolicy)
    (hh : T.process = hooks.process) (h : ∀ action ∈ actions, action.Keeps T)
    (fresh : ∀ request room, I (.fresh request room))
    (turn : ∀ l l', l.Lawful T → I l → Lane.Turn T l l' → I l') {s : SessionId} {x : Session}
    (hx : ((new config hooks).run actions).session? s = some x) :
    I ⟨x, ((new config hooks).run actions).posts s, ((new config hooks).run actions).log s⟩ := by
  have hnew : Settled T (new config hooks) := settled_new hp hh
  refine (reaches_run hnew h).shifts.lane_induction fresh turn hnew.sound ?_ s x hx
  intro t y hy
  rw [session?_new] at hy
  cases hy

end Registry

end Multicast
