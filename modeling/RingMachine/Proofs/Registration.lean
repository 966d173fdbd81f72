import RingMachine.Proofs.CallOrder

/-!
Registering observers. A caller registers hooks by event name with whole priorities, and step
rules with their period as supplied, in any order, and may go on past a registration that is
refused, which changes nothing. A hook is refused exactly when its name is no event's, and a
rule exactly when its period is at most 0 or is not a number. After any such sequence the hooks
of each name are those registered under it, each once, by priority, highest first, and in
registration order among equal priorities; emitting the name calls them in that order, so a name
that is no event's calls nothing. The step rules are those accepted, in registration order.
-/

namespace RingMachine

namespace Event

theorem ofName?_eq_some {s : String} {e : Event} : ofName? s = some e ↔ e.name = s := by
  constructor
  · intro found
    simpa using List.find?_some found
  · rintro rfl
    cases e <;> rfl

theorem ofName?_eq_none {s : String} : ofName? s = none ↔ ∀ e : Event, e.name ≠ s := by
  rw [Option.eq_none_iff_forall_ne_some]
  simp only [ne_eq, ofName?_eq_some]

theorem name_inj {a b : Event} : a.name = b.name ↔ a = b := by
  cases a <;> cases b <;> decide

end Event

/-- A registration a caller makes: a hook on the event of a name, with a whole priority, or a
step rule with its period as supplied. -/
inductive Registration where
  | hook (event : String) (priority : Int) (react : Machine → Reaction)
  | rule (name : String) (every : Literal) (react : Machine → StepContext → Reaction)

namespace Registration

def hook? : Registration → Option Hook
  | .hook event priority react => (Event.ofName? event).map fun e => ⟨e, .whole priority, react⟩
  | .rule .. => none

def rule? : Registration → Option StepRule
  | .hook .. => none
  | .rule name every react =>
    (Amount.ofLiteral? every).bind fun x => if x.le 0 then none else some ⟨name, x.period, react⟩

theorem whole_of_hook? {r : Registration} {h : Hook} (made : r.hook? = some h) : h.Whole := by
  cases r with
  | hook name p react =>
    obtain ⟨ev, -, rfl⟩ := Option.map_eq_some_iff.mp made
    exact ⟨p, rfl⟩
  | rule => cases made

end Registration

namespace Registry

def register (reg : Registry) : Registration → Except ExtensionError Registry
  | .hook event priority react => reg.onEvent event (.whole priority) react
  | .rule name every react => reg.addStepRule name every react

def registerAll (reg : Registry) : List Registration → Registry
  | [] => reg
  | r :: rest =>
    match reg.register r with
    | .ok next => next.registerAll rest
    | .error _ => reg.registerAll rest

def hooksNamed (reg : Registry) (name : String) : List Hook :=
  reg.hooks.filter fun h => h.event.name = name

variable {reg reg' : Registry} {e : ExtensionError}

theorem onEvent_eq_ok {name : String} {priority : Amount} {react : Machine → Reaction} :
    reg.onEvent name priority react = .ok reg' ↔
      ∃ ev, Event.ofName? name = some ev ∧ reg' = reg.addHook ⟨ev, priority, react⟩ := by
  unfold onEvent
  cases Event.ofName? name <;> simp [eq_comm]

theorem onEvent_eq_error {name : String} {priority : Amount} {react : Machine → Reaction} :
    reg.onEvent name priority react = .error e ↔
      Event.ofName? name = none ∧ e = .unknownEvent name := by
  unfold onEvent
  cases Event.ofName? name <;> simp [eq_comm]

theorem addStepRule_eq_ok {name : String} {every : Literal}
    {react : Machine → StepContext → Reaction} :
    reg.addStepRule name every react = .ok reg' ↔
      ∃ x, Amount.ofLiteral? every = some x ∧ x.le 0 = false ∧
        reg' = reg.addRule name x.period react := by
  unfold addStepRule Period.ofLiteral
  cases number : Amount.ofLiteral? every with
  | none => simp [bind, Except.bind]
  | some x =>
    cases below : x.le 0
    · simp only [below, bind, Except.bind, pure, Except.pure, Bool.false_eq_true, if_false,
        Except.ok.injEq, Option.some.injEq, exists_eq_left', true_and]
      exact eq_comm
    · simp [below, bind, Except.bind]

theorem addStepRule_eq_error {name : String} {every : Literal} {x : Amount}
    {react : Machine → StepContext → Reaction} (number : Amount.ofLiteral? every = some x) :
    reg.addStepRule name every react = .error e ↔
      x.le 0 = true ∧ e = .badPeriod name every.render := by
  unfold addStepRule Period.ofLiteral
  rw [number]
  cases below : x.le 0
  · simp [below, bind, Except.bind, pure, Except.pure]
  · simp only [below, bind, Except.bind, if_true, Except.error.injEq, true_and]
    exact eq_comm

theorem register_hooks (r : Registration) (registered : reg.register r = .ok reg') :
    reg'.hooks = (r.hook?).elim reg.hooks fun h => insertByPriority h reg.hooks := by
  cases r with
  | hook name priority react =>
    obtain ⟨ev, found, rfl⟩ := onEvent_eq_ok.mp registered
    simp [Registration.hook?, found, addHook]
  | rule name every react =>
    obtain ⟨x, -, -, rfl⟩ := addStepRule_eq_ok.mp registered
    rfl

theorem register_rules (r : Registration) (registered : reg.register r = .ok reg') :
    reg'.rules = reg.rules ++ (r.rule?).toList := by
  cases r with
  | hook name priority react =>
    obtain ⟨ev, -, rfl⟩ := onEvent_eq_ok.mp registered
    simp [Registration.rule?, addHook]
  | rule name every react =>
    obtain ⟨x, number, above, rfl⟩ := addStepRule_eq_ok.mp registered
    simp [Registration.rule?, number, above, addRule]

theorem register_refused (r : Registration) (refused : reg.register r = .error e) :
    r.hook? = none ∧ r.rule? = none := by
  cases r with
  | hook name priority react =>
    obtain ⟨unknown, -⟩ := onEvent_eq_error.mp refused
    simp [Registration.hook?, Registration.rule?, unknown]
  | rule name every react =>
    simp only [Registration.hook?, Registration.rule?, true_and]
    cases number : Amount.ofLiteral? every with
    | none => rfl
    | some x =>
      obtain ⟨below, -⟩ := (addStepRule_eq_error number).mp refused
      simp [below]

theorem registerAll_hooks (rs : List Registration) (reg : Registry) :
    (reg.registerAll rs).hooks =
      (rs.filterMap Registration.hook?).foldl (fun l h => insertByPriority h l) reg.hooks := by
  induction rs generalizing reg with
  | nil => rfl
  | cons r rest ih =>
    unfold registerAll
    split
    · rename_i next registered
      rw [ih, register_hooks r registered, List.filterMap_cons]
      cases r.hook? <;> rfl
    · rename_i refused
      rw [ih, List.filterMap_cons, (register_refused r refused).1]

theorem registerAll_rules (rs : List Registration) (reg : Registry) :
    (reg.registerAll rs).rules = reg.rules ++ rs.filterMap Registration.rule? := by
  induction rs generalizing reg with
  | nil => simp [registerAll]
  | cons r rest ih =>
    unfold registerAll
    split
    · rename_i next registered
      rw [ih, register_rules r registered, List.filterMap_cons]
      cases r.rule? <;> simp
    · rename_i refused
      rw [ih, List.filterMap_cons, (register_refused r refused).2]

theorem hooksNamed_name (reg : Registry) (ev : Event) :
    reg.hooksNamed ev.name = reg.hooksFor ev := by
  unfold hooksNamed hooksFor
  simp only [Event.name_inj]

theorem hooksNamed_of_unknown (reg : Registry) {name : String}
    (unknown : Event.ofName? name = none) :
    reg.hooksNamed name = [] :=
  List.filter_eq_nil_iff.mpr fun h _ named =>
    Event.ofName?_eq_none.mp unknown h.event (by simpa using named)

theorem emitNamed_quiet (reg : Registry) (name : String) (m : Machine)
    (quiet : ∀ h ∈ reg.hooksNamed name, (h.react m).failure = none) :
    reg.emitNamed name m = ((reg.hooksNamed name).flatMap fun h => (h.react m).notes, none) := by
  unfold emitNamed
  cases found : Event.ofName? name with
  | none => simp [hooksNamed_of_unknown reg found]
  | some ev =>
    obtain rfl := Event.ofName?_eq_some.mp found
    rw [hooksNamed_name] at quiet ⊢
    have calm : ∀ x ∈ (reg.hooksFor ev).map (fun h => h.react m), x.failure = none := by
      intro x member
      obtain ⟨h, found, rfl⟩ := List.mem_map.mp member
      exact quiet h found
    simp [emit, gather_lines calm, gather_failure_none calm, List.flatMap_map]

end Registry

/-- After any registrations, made in any order and going on past refusals, the hooks under each
name are exactly those registered under it, each once, by priority, highest first, and in
registration order among equal priorities; emitting the name calls them in that order, so a
name with no hooks, or that is no event's, calls nothing. The step rules are the accepted ones,
in registration order. A hook is refused exactly when its name is no event's, and a rule with a
numeric period exactly when the period is at most 0. -/
theorem registrations_keep_priority_order (rs : List Registration) :
    let reg := Registry.empty.registerAll rs
    (∀ name : String,
      let bucket := reg.hooksNamed name
      let registered := (rs.filterMap Registration.hook?).filter fun h => h.event.name = name
      bucket.Perm registered ∧ Hook.ByPriority bucket ∧
        (∀ p : Amount, bucket.filter (fun h => h.priority = p) =
          registered.filter (fun h => h.priority = p)) ∧
        ∀ m, (∀ h ∈ bucket, (h.react m).failure = none) →
          reg.emitNamed name m = (bucket.flatMap fun h => (h.react m).notes, none)) ∧
    reg.rules = rs.filterMap Registration.rule? ∧
    (∀ (before : Registry) (name : String) (p : Int) (react : Machine → Reaction)
      (e : ExtensionError), before.register (.hook name p react) = .error e ↔
        Event.ofName? name = none ∧ e = .unknownEvent name) ∧
    (∀ (before : Registry) (name : String) (every : Literal) (x : Amount)
      (react : Machine → StepContext → Reaction) (e : ExtensionError),
      Amount.ofLiteral? every = some x →
      (before.register (.rule name every react) = .error e ↔
        x.le 0 = true ∧ e = .badPeriod name every.render)) := by
  intro reg
  have whole : ∀ h ∈ rs.filterMap Registration.hook?, h.Whole := fun h member => by
    obtain ⟨r, -, made⟩ := List.mem_filterMap.mp member
    exact Registration.whole_of_hook? made
  -- Registering is inserting each accepted hook by priority, which keeps the whole list ranked.
  have built :
      reg.hooks = (rs.filterMap Registration.hook?).foldl (fun l h => insertByPriority h l) [] :=
    Registry.registerAll_hooks rs Registry.empty
  refine ⟨fun name => ?_, by simp [reg, Registry.registerAll_rules],
    fun before name p react e => Registry.onEvent_eq_error,
    fun before name every x react e number => Registry.addStepRule_eq_error number⟩
  obtain ⟨named, sorted, tied⟩ := Registry.filter_insertAll _ whole (fun h => h.event.name = name)
  rw [← built] at named sorted tied
  exact ⟨named, sorted, tied, fun m quiet => Registry.emitNamed_quiet reg name m quiet⟩

end RingMachine
