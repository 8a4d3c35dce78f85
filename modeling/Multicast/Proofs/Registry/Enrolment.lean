import Multicast.Proofs.Registry.StoppedForGood
import Multicast.Proofs.Traffic.Backfills

/-! A registration is all or nothing. Between the call and the end of its callback anything may
happen to the registry; the call itself brings in its subscriber in one step, the last one, or
leaves no trace. -/

namespace Multicast

/-- Whether an event is the callback before a registration being called. -/
def Event.isAsking : Event → Bool
  | .beforeRegistered .. => true
  | _ => false

/-- A subscriber as it comes in: nothing is queued for it, and nothing was ever written. -/
structure Session.Fresh (request : Subscription) (x : Session) : Prop where
  peer : x.peer = request.peer
  keys : x.keys = request.keys
  token : x.token = request.token
  filter : x.filter = request.filter
  sink : x.sink = request.sink
  stage : x.stage = .registered
  queue : x.queue.size = 0 ∧ x.queue.closed = false
  cursor : x.cursor.position = none
  lastSent : x.lastSent = none

theorem Session.fresh_ofSubscription (request : Subscription) (n : Nat) :
    (ofSubscription request n).Fresh request :=
  ⟨rfl, rfl, rfl, rfl, rfl, rfl, ⟨rfl, rfl⟩, rfl, rfl⟩

/-- Whether a registration stands outside: its callback is under way, or it has failed. -/
def Call.Outside (request : Subscription) : Call → Prop
  | .subscribing asked _ => asked = request
  | .returned (.error _) | .crashed => True
  | _ => False

theorem Call.Outside.not_movable {request : Subscription} {c : Call} (h : c.Outside request) :
    ¬ c.Movable := by
  cases c with
  | subscribing | returned | crashed => exact id
  | _ => exact h.elim

namespace Registry

/-- Whether an action makes the call with the number `i` or lets it go on. -/
def advances (r : Registry) (i : Nat) : Action → Bool
  | .run (.call j) => j == i
  | action => decide (r.calls.length ≤ i ∧ i < (r.apply action).calls.length)

/-- The steps of the call with the number `i` in the course of the actions, each as the state before
and the state after it. -/
def course (i : Nat) (r : Registry) : List Action → List (Registry × Registry)
  | [] => []
  | action :: rest =>
    if r.advances i action then (r, r.apply action) :: course i (r.apply action) rest
    else course i (r.apply action) rest

/-- With what the callback of the registration with the number `i` comes back if the call goes on
now. -/
def hookResult? (r : Registry) (i : Nat) : Option (Except HookError Unit) :=
  match r.calls[i]? with
  | some (.subscribing _ hook) =>
    match hook.ready r.now, hook.step r.now with
    | true, .done result => some result
    | _, _ => none
  | _ => none

/-- The callback of the registration comes back with success, and the registry has not been
stopped. -/
def LetsIn (r : Registry) (i : Nat) : Prop :=
  r.hookResult? i = some (.ok ()) ∧ r.stopped = false

/-- Nobody comes, nobody goes, no subscriber changes and nothing is counted. -/
structure LeavesAlone (r v : Registry) : Prop where
  sessions : v.sessions = r.sessions
  members : v.members = r.members
  metrics : v.metrics = r.metrics

/-- One subscriber comes in, with the number `s`, at the end of the set. -/
structure Enrols (request : Subscription) (s : SessionId) (r v : Registry) : Prop where
  number : s = r.sessions.length
  sessions : ∃ x, v.sessions = r.sessions ++ [x] ∧ x.Fresh request
  members : v.members = r.members ++ [s]
  metrics : v.metrics = r.metrics.setSessions (r.members.length + 1)

/-- No callback is called. -/
def CallsNobody (r v : Registry) : Prop :=
  ∀ e ∈ r.news v, e.isAsking = false ∧ e.hooked? = none

/-- Where the registration with the number `i` stands after its steps: outside, or with its
subscriber brought in by one of them. -/
inductive Enrolment (request : Subscription) (i : Nat) (steps : List (Registry × Registry))
    (v : Registry) : Prop
  | outside {c : Call} (call : v.calls[i]? = some c) (stands : c.Outside request)
      (alone : ∀ e ∈ steps, LeavesAlone e.1 e.2 ∧ ¬ e.1.LetsIn i)
  | inside {s : SessionId} {earlier later : List (Registry × Registry)} {e : Registry × Registry}
      (call : v.calls[i]? = some (.returned (.ok (.subscribed s))))
      (split : steps = earlier ++ e :: later) (lets : e.1.LetsIn i)
      (enrols : Enrols request s e.1 e.2)
      (others : ∀ e' ∈ earlier ++ later, LeavesAlone e'.1 e'.2 ∧ ¬ e'.1.LetsIn i)

variable {T : Terms} {r v : Registry} {s : SessionId} {i : Nat} {c : Call} {config : Config}
  {hooks : Hooks} {request : Subscription} {hook : HookRun} {actions : List Action}
  {action : Action} {steps : List (Registry × Registry)}

/-! ### The steps of one call -/

theorem course_concat (i : Nat) (r : Registry) (actions : List Action) (a : Action) :
    course i r (actions ++ [a]) = course i r actions ++
      (if (r.run actions).advances i a then [(r.run actions, (r.run actions).apply a)] else []) := by
  induction actions generalizing r with
  | nil => rfl
  | cons first rest ih =>
    rw [List.cons_append, course, course, ih]
    split
    · exact (List.cons_append ..).symm
    · rfl

theorem exists_of_mem_course {e : Registry × Registry} (he : e ∈ course i r actions) :
    ∃ w a, w ++ [a] <+: actions ∧ e = (r.run w, (r.run w).apply a) := by
  induction actions using List.reverseRecOn with
  | nil => cases he
  | append_singleton rest action ih =>
    rw [course_concat] at he
    rcases List.mem_append.mp he with he | he
    · obtain ⟨w, a, hw, heq⟩ := ih he
      exact ⟨w, a, hw.trans (List.prefix_append rest [action]), heq⟩
    · split at he
      · exact ⟨rest, action, List.prefix_rfl, List.mem_singleton.mp he⟩
      · cases he

/-- A call that has been made advances only by going on. -/
theorem advances_iff (hi : i < r.calls.length) :
    r.advances i action = true ↔ action = .run (.call i) := by
  unfold advances
  split
  · simp
  · rename_i hother
    have hnot : action ≠ .run (.call i) := hother i
    simp only [decide_eq_true_eq, hnot, iff_false]
    omega

theorem LeavesAlone.refl (r : Registry) : LeavesAlone r r := ⟨rfl, rfl, rfl⟩

theorem callsNobody_of_history (h : v.history = r.history) : CallsNobody r v := by
  have hnews : r.news v = [] := news_of_append (show v.history = [] ++ r.history from h)
  rw [CallsNobody, hnews]
  exact nofun

/-! ### One step of a registration -/

/-- A call that has to wait lets nobody in. -/
theorem not_letsIn_of_waiting (hc : r.calls[i]? = some c) (hready : r.callReady i c = false) :
    ¬ r.LetsIn i := by
  intro h
  have hresult := h.1
  rw [hookResult?, hc] at hresult
  cases c with
  | subscribing request hook =>
    have hwaits : hook.ready r.now = false := hready
    simp only [hwaits, reduceCtorEq] at hresult
  | _ => cases hresult

/-- A registration that goes on moves to another place outside, or its subscriber comes in. -/
theorem subscribeStep_cases (hc : r.calls[i]? = some (.subscribing request hook))
    (hready : hook.ready r.now = true) :
    (∃ c : Call, c.Outside request ∧ r.subscribeStep i request hook = r.setCall i c ∧
      ¬ r.LetsIn i) ∨
    (r.LetsIn i ∧ r.subscribeStep i request hook = (r.enrol request).1.setCall i
      (.returned (.ok (.subscribed r.sessions.length)))) := by
  unfold subscribeStep LetsIn hookResult?
  simp only [hc, hready]
  cases hook.step r.now with
  | running next => exact .inl ⟨.subscribing request next, rfl, rfl, nofun⟩
  | crashed => exact .inl ⟨.crashed, trivial, rfl, nofun⟩
  | done result =>
    cases result with
    | error e => exact .inl ⟨.returned (.error (.hook e)), trivial, rfl, nofun⟩
    | ok =>
      cases hstopped : r.stopped with
      | true => exact .inl ⟨.returned (.error .stopped), trivial, rfl, nofun⟩
      | false => exact .inr ⟨⟨rfl, rfl⟩, rfl⟩

theorem enrols_enrol (r : Registry) (request : Subscription) :
    Enrols request r.sessions.length r (r.enrol request).1 where
  number := rfl
  sessions := ⟨_, rfl, Session.fresh_ofSubscription ..⟩
  members := rfl
  metrics := congrArg r.metrics.setSessions List.length_append

theorem callsNobody_enrol (r : Registry) (request : Subscription) :
    CallsNobody r (r.enrol request).1 := by
  intro e he
  have hhistory : (r.enrol request).1.history = [.registered ((r.enrol request).1.nameOf
      r.sessions.length) request.keys (r.enrol request).1.members.length] ++ r.history := rfl
  rw [news_of_append hhistory, List.reverse_singleton, List.mem_singleton] at he
  subst he
  exact ⟨rfl, rfl⟩

/-- A step of a registration that is outside. -/
theorem step_of_outside (hc : r.calls[i]? = some c) (h : c.Outside request)
    (hv : v = r.apply (.run (.call i))) : CallsNobody r v ∧
      ((∃ c', v.calls[i]? = some c' ∧ Call.Outside request c' ∧ LeavesAlone r v ∧ ¬ r.LetsIn i) ∨
        v.calls[i]? = some (.returned (.ok (.subscribed r.sessions.length))) ∧ r.LetsIn i ∧
          Enrols request r.sessions.length r v) := by
  have hlt : i < r.calls.length := (List.getElem?_eq_some_iff.mp hc).1
  cases hready : r.callReady i c with
  | false =>
    obtain rfl : v = r := hv.trans (apply_call_of_waiting hc hready)
    exact ⟨callsNobody_of_history rfl, .inl ⟨c, hc, h, .refl v, not_letsIn_of_waiting hc hready⟩⟩
  | true =>
    cases c with
    | subscribing asked hook =>
      obtain rfl : asked = request := h
      rw [apply_of_subscribing hc hready] at hv
      rcases subscribeStep_cases hc hready with ⟨c', hc', hstep, hrefused⟩ | ⟨hlets, hstep⟩
      · obtain rfl := hv.trans hstep
        exact ⟨callsNobody_of_history rfl,
          .inl ⟨c', List.getElem?_set_self hlt, hc', ⟨rfl, rfl, rfl⟩, hrefused⟩⟩
      · obtain rfl := hv.trans hstep
        have henrols := enrols_enrol r asked
        exact ⟨callsNobody_enrol r asked, .inr ⟨List.getElem?_set_self hlt, hlets,
          henrols.number, henrols.sessions, henrols.members, henrols.metrics⟩⟩
    | returned | crashed => cases hready
    | _ => exact h.elim

/-! ### The whole course of a registration -/

/-- An action that is not a step of the call leaves it where it is, and a step takes it on. -/
theorem enrolment_apply (hr : Settled T r) (h : Enrolment request i steps r) (action : Action) :
    (r.advances i action = true → CallsNobody r (r.apply action)) ∧
      Enrolment request i
        (steps ++ if r.advances i action then [(r, r.apply action)] else []) (r.apply action) := by
  obtain ⟨c, hc, hmovable⟩ : ∃ c, r.calls[i]? = some c ∧ ¬ c.Movable := by
    cases h with
    | outside call stands => exact ⟨_, call, stands.not_movable⟩
    | inside call => exact ⟨_, call, id⟩
  have hadvances : r.advances i action = true ↔ action = .run (.call i) :=
    advances_iff (List.getElem?_eq_some_iff.mp hc).1
  by_cases ha : action = .run (.call i)
  · subst ha
    rw [if_pos (hadvances.mpr rfl)]
    cases h with
    | outside call stands alone =>
      obtain ⟨hnobody, ⟨c', hc', hstands, halone, hrefused⟩ | ⟨hcall, hlets, henrols⟩⟩ :=
        step_of_outside call stands rfl
      · refine ⟨fun _ => hnobody, .outside hc' hstands fun e he => ?_⟩
        rcases List.mem_append.mp he with he | he
        · exact alone e he
        · obtain rfl := List.mem_singleton.mp he
          exact ⟨halone, hrefused⟩
      · refine ⟨fun _ => hnobody, .inside hcall rfl hlets henrols fun e he => ?_⟩
        rw [List.append_nil] at he
        exact alone e he
    | @inside s earlier later e call split lets enrols others =>
      -- the call is over, so that nothing happens any more
      have hsame : r.apply (.run (.call i)) = r := apply_call_of_waiting call rfl
      have hsplit : steps ++ [(r, r)] = earlier ++ e :: (later ++ [(r, r)]) := by
        rw [split, List.append_assoc, List.cons_append]
      rw [hsame]
      refine ⟨fun _ => callsNobody_of_history rfl, .inside call hsplit lets enrols fun e' he' => ?_⟩
      rw [← List.append_assoc] at he'
      rcases List.mem_append.mp he' with he' | he'
      · exact others e' he'
      · obtain rfl := List.mem_singleton.mp he'
        exact ⟨.refl r, not_letsIn_of_waiting call rfl⟩
  · have hnot : ¬ r.advances i action = true := fun h => ha (hadvances.mp h)
    rw [if_neg hnot, List.append_nil]
    have hstays {c : Call} (hc : r.calls[i]? = some c) (hm : ¬ c.Movable) :
        (r.apply action).calls[i]? = some c := call_stays hr hc hm ha
    refine ⟨fun h => absurd h hnot, ?_⟩
    cases h with
    | outside call stands alone =>
      exact .outside (hstays call stands.not_movable) stands alone
    | inside call split lets enrols others =>
      exact .inside (hstays call id) split lets enrols others

/-- A registration stands outside when it is made. -/
theorem enrolment_made (r : Registry) (request : Subscription) :
    Enrolment request r.calls.length [(r, r.subscribe request)] (r.subscribe request) := by
  have hcall (u : Registry) (c : Call) : (u.addCall c).calls[u.calls.length]? = some c :=
    List.getElem?_concat_length
  have hnone : ¬ r.LetsIn r.calls.length := by
    simp [LetsIn, hookResult?]
  cases hstopped : r.stopped with
  | true =>
    rw [subscribe_of_stopped hstopped]
    refine .outside (hcall r _) trivial fun e he => ?_
    obtain rfl := List.mem_singleton.mp he
    exact ⟨⟨rfl, rfl, rfl⟩, hnone⟩
  | false =>
    have hsubscribe : r.subscribe request =
        (r.note (.beforeRegistered request.peer request.keys)).addCall
          (.subscribing request ⟨r.now, r.hooks.before request⟩) := by
      simp only [subscribe, hstopped, Bool.false_eq_true, if_false]
    rw [hsubscribe]
    refine .outside (hcall _ _) rfl fun e he => ?_
    obtain rfl := List.mem_singleton.mp he
    exact ⟨⟨rfl, rfl, rfl⟩, hnone⟩

/-- What is told when a registration is made: the callback is called, unless the registry has been
stopped. -/
theorem news_subscribe (r : Registry) (request : Subscription) :
    r.news (r.subscribe request) =
      if r.stopped then [] else [.beforeRegistered request.peer request.keys] := by
  cases hstopped : r.stopped with
  | true =>
    rw [subscribe_of_stopped hstopped]
    exact news_of_append (List.nil_append r.history).symm
  | false =>
    rw [subscribe, if_neg (by simp [hstopped])]
    exact news_of_append
      (show _ = [.beforeRegistered request.peer request.keys] ++ r.history from rfl)

theorem course_subscribe (r : Registry) (request : Subscription) (after : List Action) :
    course r.calls.length r (.subscribe request :: after) =
      (r, r.subscribe request) :: course r.calls.length (r.subscribe request) after := by
  have hmade : r.calls.length < (r.subscribe request).calls.length := by
    unfold subscribe
    split
    · simp [addCall]
    · simp [addCall, note]
  exact if_pos (decide_eq_true ⟨Nat.le_refl _, hmade⟩)

/-- The steps of a registration in a run, and where it stands after it. -/
theorem enrolment_run (hr : Settled (.any config hooks True) r) (request : Subscription)
    (after : List Action) :
    let v := r.subscribe request
    Settled (.any config hooks True) (v.run after) ∧
      (∀ e ∈ course r.calls.length v after, CallsNobody e.1 e.2) ∧
      Enrolment request r.calls.length ((r, v) :: course r.calls.length v after)
        (v.run after) := by
  intro v
  have hv : Settled (.any config hooks True) v :=
    (reaches_apply hr (Action.subscribe request).keeps_any).settled
  -- along the actions after the call, each of which is a step of it or not
  induction after using List.reverseRecOn with
  | nil => exact ⟨hv, nofun, enrolment_made r request⟩
  | append_singleton rest action ih =>
    obtain ⟨hsettled, hnobody, hstands⟩ := ih
    obtain ⟨hstep, hnext⟩ := enrolment_apply hsettled hstands action
    have hcourse := course_concat r.calls.length v rest action
    have hrun : v.run (rest ++ [action]) = (v.run rest).apply action := run_append v rest [action]
    refine ⟨hrun ▸ (reaches_apply hsettled action.keeps_any).settled, ?_, ?_⟩
    · intro e he
      rw [hcourse] at he
      rcases List.mem_append.mp he with he | he
      · exact hnobody e he
      · split at he
        · rename_i hadvances
          obtain rfl := List.mem_singleton.mp he
          exact hstep hadvances
        · cases he
    · rw [hrun, hcourse, ← List.cons_append]
      exact hnext

/-- A registration has brought its subscriber in just if one of its steps was to let it in. -/
theorem Enrolment.returned_iff (h : Enrolment request i steps v) (s : SessionId) :
    v.calls[i]? = some (.returned (.ok (.subscribed s))) ↔
      ∃ e ∈ steps, e.1.LetsIn i ∧ s = e.1.sessions.length := by
  cases h with
  | outside call stands alone =>
    constructor
    · intro hc
      obtain rfl := Option.some.inj (call.symm.trans hc)
      exact stands.elim
    · rintro ⟨e, he, hlets, -⟩
      exact absurd hlets (alone e he).2
  | @inside t earlier later e call split lets enrols others =>
    have hmem {e' : Registry × Registry} : e' ∈ steps ↔ e' = e ∨ e' ∈ earlier ++ later := by
      rw [split, List.mem_append, List.mem_append, List.mem_cons]
      exact or_left_comm
    constructor
    · intro hc
      obtain rfl : t = s := by simpa using call.symm.trans hc
      exact ⟨e, hmem.mpr (.inl rfl), lets, enrols.number⟩
    · rintro ⟨e', he', hlets, rfl⟩
      rcases hmem.mp he' with rfl | hother
      · rw [call, enrols.number]
      · exact absurd hlets (others e' hother).2

/-- Nobody is let in by a registration that is made when the registry has been stopped. -/
theorem stopped_of_mem_course (hr : Settled (.any config hooks True) r)
    (hstopped : r.stopped = true) {e : Registry × Registry} (he : e ∈ course i r actions) :
    e.1.stopped = true := by
  obtain ⟨w, a, -, rfl⟩ := exists_of_mem_course he
  exact stopped_run hr hstopped w

/-- A registration is all or nothing. In every run, for a call to subscribe and whatever is done
before and after it, the call has returned a subscriber just if the registry was not stopped when it
was made and the callback came back with success to a registry that was not stopped; its subscriber
is then the next one. One step of the call has put it at the end of the set, registered, with an
empty queue and nothing written, and every other step leaves the set, the subscribers and all that
is counted alone. As long as it has not returned a subscriber, and so if it never does, all its
steps leave them alone. The callback before the registration is called once, or not at all if the
registry was stopped already; the one after a removal is not called by it. -/
theorem subscribe_all_or_nothing (config : Config) (hooks : Hooks) (before : List Action)
    (request : Subscription) (after : List Action) :
    let r := (new config hooks).run before
    let i := r.calls.length
    let v := r.run (.subscribe request :: after)
    let steps := course i r (.subscribe request :: after)
    (∀ s, v.calls[i]? = some (.returned (.ok (.subscribed s))) ↔
      r.stopped = false ∧ ∃ e ∈ steps, e.1.hookResult? i = some (.ok ()) ∧ e.1.stopped = false ∧
        s = e.1.sessions.length) ∧
      (∀ s, v.calls[i]? = some (.returned (.ok (.subscribed s))) →
        ∃ earlier e later, steps = earlier ++ e :: later ∧ Enrols request s e.1 e.2 ∧
          ∀ e' ∈ earlier ++ later, LeavesAlone e'.1 e'.2) ∧
      ((∀ s, v.calls[i]? ≠ some (.returned (.ok (.subscribed s)))) →
        ∀ e ∈ steps, LeavesAlone e.1 e.2) ∧
      ((steps.flatMap fun e => e.1.news e.2).countP Event.isAsking = if r.stopped then 0 else 1) ∧
      ∀ e ∈ steps, ∀ event ∈ e.1.news e.2, event.hooked? = none := by
  intro r i v steps
  have hr : Settled (.any config hooks True) r :=
    settled_run rfl rfl fun action _ => action.keeps_any
  obtain ⟨-, hnobody, hstands⟩ := enrolment_run hr request after
  have hsteps : steps = (r, r.subscribe request) :: course i (r.subscribe request) after :=
    course_subscribe r request after
  have hnews : r.news (r.subscribe request) =
      if r.stopped then [] else [.beforeRegistered request.peer request.keys] :=
    news_subscribe r request
  rw [← hsteps] at hstands
  refine ⟨fun s => (hstands.returned_iff s).trans ?_, ?_, ?_, ?_, ?_⟩
  · constructor
    · rintro ⟨e, he, ⟨hresult, hopen⟩, hs⟩
      refine ⟨?_, e, he, hresult, hopen, hs⟩
      by_contra hstopped
      have hend := stopped_of_mem_course hr (by simpa using hstopped) he
      exact Bool.false_ne_true (hopen.symm.trans hend)
    · rintro ⟨-, e, he, hresult, hopen, hs⟩
      exact ⟨e, he, ⟨hresult, hopen⟩, hs⟩
  · intro s hs
    cases hstands with
    | outside call stands =>
      obtain rfl := Option.some.inj (call.symm.trans hs)
      exact stands.elim
    | @inside t earlier later e call split lets enrols others =>
      obtain rfl : t = s := by simpa using call.symm.trans hs
      exact ⟨earlier, e, later, split, enrols, fun e' he' => (others e' he').1⟩
  · intro hnot e he
    cases hstands with
    | outside call stands alone => exact (alone e he).1
    | @inside t _ _ _ call => exact absurd call (hnot t)
  · have hlater : ((course i (r.subscribe request) after).flatMap fun e =>
        e.1.news e.2).countP Event.isAsking = 0 := by
      rw [List.countP_eq_zero]
      intro event hmem
      obtain ⟨e, he, hevent⟩ := List.mem_flatMap.mp hmem
      simp [(hnobody e he event hevent).1]
    rw [hsteps, List.flatMap_cons, List.countP_append, hlater, hnews]
    split
    · rfl
    · rfl
  · intro e he event hevent
    rw [hsteps] at he
    rcases List.mem_cons.mp he with rfl | he
    · rw [hnews] at hevent
      split at hevent
      · cases hevent
      · obtain rfl := List.mem_singleton.mp hevent
        rfl
    · exact (hnobody e he event hevent).2

end Registry

end Multicast
