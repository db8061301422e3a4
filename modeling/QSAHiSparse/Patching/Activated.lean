import QSAHiSparse.Patching.Tampering

namespace QSAHiSparse
namespace Patching

open Foundation

/-!
# What a successful activation freezes

The steps of an activation are taken one by one: what each of them leaves when it
returns.  Together they leave the frozen variables that the final check compares
with.
-/

section Steps

variable {World Object : Type} {interp : Interpreter World Object} {files : Installation}

theorem raising_ok {α : Type} {check : Except PatchingError α} {self after : Process World Object}
    {value : α}
    (returned : (raising check : Activating World Object α).run self = .ok value after) :
    check = .ok value ∧ after = self := by
  cases check with
  | ok found =>
      cases returned
      exact ⟨rfl, rfl⟩
  | error cause => cases returned

/-- The names of a plan come from its declarations. -/
theorem Process.checks_ok {self : Process World Object} {features : Features} {plan : Plan Object}
    (passed : self.checks interp files features = .ok plan) :
    plan.targets = (plan.specs.map PatchSpec.target).dedup ∧ plan.depends.Nodup := by
  unfold Process.checks at passed
  rcases Except.bind_ok passed with ⟨⟨specs, attaches⟩, _, passed⟩
  rcases Except.bind_ok passed with ⟨_, _, passed⟩
  rcases Except.bind_ok passed with ⟨_, _, passed⟩
  rcases Except.bind_ok passed with ⟨_, _, passed⟩
  rcases Except.bind_ok passed with ⟨_, _, passed⟩
  rcases Except.bind_ok passed with ⟨_, _, same⟩
  cases same
  exact ⟨rfl, (List.nodup_dedup _).filter _⟩

theorem checkEntries_ok [DecidableEq Object] {plan : Plan Object} {self after : Process World Object}
    (returned : (checkEntries plan).run self = .ok ⟨⟩ after) :
    after = self ∧ forall target, target ∈ plan.targets ->
      (self.hooks.get? target).getD [] = expectedEntries plan.specs target := by
  rcases run_bind_ok returned with ⟨_, read, got, returned⟩
  cases got
  refine run_forM_checks ?_ returned
  intro target state next tested
  by_cases same : (self.hooks.get? target).getD [] = expectedEntries plan.specs target
  · rw [if_neg (not_not.mpr same)] at tested
    cases tested
    exact ⟨rfl, same⟩
  · rw [if_pos same] at tested
    cases tested

/-- Applying hooks writes the world and the names that are patched. -/
theorem applyTargets_ok {plan : Plan Object} {self after : Process World Object}
    (returned : (applyTargets interp plan).run self = .ok ⟨⟩ after) :
    after = { self with world := after.world, patched := after.patched } := by
  rcases run_bind_ok returned with ⟨_, read, got, returned⟩
  cases got
  refine @run_forM_ok _ _ _
    (fun state => state = { self with world := state.world, patched := state.patched })
    _ _ ?_ _ _ rfl returned
  intro entry _ state next kept applied
  rcases run_bind_ok applied with ⟨_, read, got, applied⟩
  cases got
  rcases run_bind_ok applied with ⟨world, same, raised, written⟩
  rw [(raising_ok raised).2] at written
  cases written
  rw [kept]

theorem checkApplied_ok [DecidableEq Object] {plan : Plan Object}
    {self after : Process World Object}
    (returned : (checkApplied interp plan).run self = .ok ⟨⟩ after) : after = self := by
  rcases run_bind_ok returned with ⟨_, read, got, returned⟩
  cases got
  rcases run_bind_ok returned with ⟨_, between, first, second⟩
  exact (raising_ok second).2.trans (raising_ok first).2

/-- Names that were resolved are the names asked for, each with its object. -/
theorem resolved_ok {world : World} {names : List String} {items : List (String × Object)}
    (resolved : interp.resolved world names = .ok items) :
    items.map Prod.fst = names ∧ forall item, item ∈ items ->
      interp.rawAttribute world item.1 = .ok item.2 := by
  induction names generalizing items with
  | nil =>
      cases resolved
      exact ⟨rfl, fun _ member => absurd member List.not_mem_nil⟩
  | cons name names previous =>
      unfold Interpreter.resolved at resolved
      rw [List.mapM_cons] at resolved
      rcases Except.bind_ok resolved with ⟨first, found, rest⟩
      rcases Except.bind_ok rest with ⟨others, looped, same⟩
      rcases Except.bind_ok found with ⟨value, asked, equal⟩
      cases same
      cases equal
      have tail := previous looped
      constructor
      · rw [List.map_cons, tail.1]
      · intro item member
        rcases List.mem_cons.mp member with same | later
        · rw [same]
          exact python_ok_iff.mp asked
        · exact tail.2 item later

/-- An empty dictionary that is updated with resolved names holds what they
resolve to. -/
theorem get?_resolved {world : World} {names : List String} {items : List (String × Object)}
    (resolved : interp.resolved world names = .ok items) (distinct : names.Nodup) (name : String)
    (object : Object) :
    ((Dict.empty : Dict String Object).update items).get? name = some object <->
      name ∈ names ∧ interp.rawAttribute world name = .ok object := by
  have known := resolved_ok resolved
  rw [Dict.get?_update_iff (known.1 ▸ distinct), Dict.get?_empty]
  constructor
  · rintro (member | ⟨_, absent⟩)
    · refine ⟨?_, known.2 _ member⟩
      rw [← known.1]
      exact List.mem_map_of_mem member
    · cases absent
  · rintro ⟨member, resolves⟩
    rw [← known.1] at member
    rcases List.mem_map.mp member with ⟨item, listed, same⟩
    have found := known.2 item listed
    rw [same, resolves] at found
    refine Or.inl ?_
    rw [Except.ok.inj found, ← same]
    exact listed

theorem freeze_ok {plan : Plan Object} {self after : Process World Object}
    (returned : (freeze interp plan).run self = .ok ⟨⟩ after) :
    exists applied depends, interp.resolved self.world plan.targets = .ok applied ∧
      interp.resolved self.world plan.depends = .ok depends ∧
      after = { self with
        applied := self.applied.update applied
        frozenHooks := self.frozenHooks.update
          (plan.targets.map fun target => (target, (self.hooks.get? target).getD []))
        frozenDepends := self.frozenDepends.update depends } := by
  rcases run_bind_ok returned with ⟨_, read, got, returned⟩
  cases got
  rcases run_bind_ok returned with ⟨applied, between, resolved, rest⟩
  have first := raising_ok resolved
  rw [first.2] at rest
  rcases run_bind_ok rest with ⟨_, written, updated, rest⟩
  cases updated
  rcases run_bind_ok rest with ⟨_, hooked, updated, rest⟩
  cases updated
  rcases run_bind_ok rest with ⟨depends, read, resolved, updated⟩
  have second := raising_ok resolved
  rw [second.2] at updated
  cases updated
  exact ⟨applied, depends, first.1, second.1, rfl⟩

/-- Attaching members writes the world. -/
theorem attachAll_ok [DecidableEq Object] {attaches : List (AttachSpec Object)}
    {self after : Process World Object}
    (returned : (attachAll interp attaches).run self = .ok ⟨⟩ after) :
    after = { self with world := after.world } := by
  rcases run_bind_ok returned with ⟨_, read, got, returned⟩
  cases got
  rcases run_bind_ok returned with ⟨owners, state, raised, rest⟩
  rw [(raising_ok raised).2] at rest
  rcases run_bind_ok rest with ⟨_, state, raised, rest⟩
  rw [(raising_ok raised).2] at rest
  rcases run_bind_ok rest with ⟨_, state, raised, rest⟩
  rw [(raising_ok raised).2] at rest
  rcases run_bind_ok rest with ⟨_, written, looped, rest⟩
  have framed := @run_forM_ok _ _ _ (fun state => state = { self with world := state.world })
    _ _ (by
      intro entry _ state next kept applied
      rcases run_bind_ok applied with ⟨_, read, got, applied⟩
      cases got
      rcases run_bind_ok applied with ⟨world, same, raised, done⟩
      rw [(raising_ok raised).2] at done
      cases done
      rw [kept]) _ _ rfl looped
  rcases run_bind_ok rest with ⟨_, read, got, verified⟩
  cases got
  rw [(raising_ok verified).2]
  exact framed

end Steps

/-! ## The whole activation -/

section Whole

variable {World Object : Type} [DecidableEq Object] (interp : Interpreter World Object)
  (files : Installation)

/-- A process in which the plugin was imported, with any world and registry. -/
def Process.started (world : World) (hooks : Hooks Object) (patched : List String)
    (declared : List (PatchSpec Object)) (attached : List (AttachSpec Object)) :
    Process World Object where
  world := world
  hooks := hooks
  patched := patched
  declared := declared
  attached := attached
  activated := none
  applied := .empty
  frozenHooks := .empty
  frozenDepends := .empty
  attachedLive := []

/-- The part of an activation between its checks and what it freezes. -/
def applyHooks (plan : Plan Object) : Activating World Object PUnit := do
  registerSpecs interp plan.specs
  checkEntries plan
  applyTargets interp plan
  checkApplied interp plan

variable {interp files}

/-- A process whose hooks were applied has the entries of its declarations and the
frozen variables it had. -/
theorem applyHooks_ok {plan : Plan Object} {self after : Process World Object}
    (returned : (applyHooks interp plan).run self = .ok ⟨⟩ after) :
    after = { self with world := after.world, patched := after.patched, hooks := after.hooks } ∧
      forall target, target ∈ plan.targets ->
        (after.hooks.get? target).getD [] = expectedEntries plan.specs target := by
  rcases run_bind_ok returned with ⟨_, registered, wrote, returned⟩
  have framed : registered = { self with hooks := registered.hooks } := by
    refine @run_forM_ok _ _ _ (fun state => state = { self with hooks := state.hooks })
      _ _ ?_ _ _ rfl wrote
    intro spec _ state next kept written
    cases written
    rw [kept]
  rcases run_bind_ok returned with ⟨_, checked, tested, returned⟩
  have entries := checkEntries_ok tested
  rw [entries.1] at returned
  rcases run_bind_ok returned with ⟨_, applied, ran, compared⟩
  have touched := applyTargets_ok ran
  rw [checkApplied_ok compared]
  have hooks : applied.hooks = registered.hooks := by rw [touched]
  rw [hooks]
  refine ⟨?_, entries.2⟩
  rw [touched, framed]

/-- A successful activation passed its checks, applied its hooks, and froze the
hooks and the objects that this left. -/
theorem activate_ok {self after : Process World Object} {features : Features}
    {specs : List (PatchSpec Object)} (inactive : self.activated = none)
    (returned : (activate interp files features).run self = .ok specs after) :
    exists plan applied frozen attached, self.checks interp files features = .ok plan ∧
      (applyHooks interp plan).run self = .ok ⟨⟩ applied ∧
      (freeze interp plan).run applied = .ok ⟨⟩ frozen ∧
      (attachAll interp plan.attaches).run frozen = .ok ⟨⟩ attached ∧
      after = { attached with attachedLive := plan.attaches, activated := some features } := by
  rcases run_bind_ok returned with ⟨_, read, got, returned⟩
  cases got
  rw [inactive] at returned
  rcases run_bind_ok returned with ⟨plan, checked, passed, returned⟩
  have plans := raising_ok passed
  rw [plans.2] at returned
  rcases run_bind_ok returned with ⟨_, registered, wrote, returned⟩
  rcases run_bind_ok returned with ⟨_, tested, entries, returned⟩
  rcases run_bind_ok returned with ⟨_, applied, ran, returned⟩
  rcases run_bind_ok returned with ⟨_, compared, differ, returned⟩
  rcases run_bind_ok returned with ⟨_, frozen, froze, returned⟩
  rcases run_bind_ok returned with ⟨_, attached, attachedAll, returned⟩
  cases returned
  refine ⟨plan, compared, frozen, attached, plans.1, ?_, froze, attachedAll, rfl⟩
  unfold applyHooks
  rw [EStateM.run_bind, wrote]
  change (checkEntries plan >>= fun _ => _ : Activating World Object PUnit).run registered = _
  rw [EStateM.run_bind, entries]
  change (applyTargets interp plan >>= fun _ => _ : Activating World Object PUnit).run tested = _
  rw [EStateM.run_bind, ran]
  exact differ

theorem activate_frozen {world : World} {hooks : Hooks Object} {patched : List String}
    {declared : List (PatchSpec Object)} {attached : List (AttachSpec Object)}
    {features : Features} {specs : List (PatchSpec Object)} {after : Process World Object}
    (returned : (activate interp files features).run
      (Process.started world hooks patched declared attached) = .ok specs after) :
    exists plan applied,
      (Process.started world hooks patched declared attached).checks interp files features =
        .ok plan ∧
      (applyHooks interp plan).run (Process.started world hooks patched declared attached) =
        .ok ⟨⟩ applied ∧ Frozen interp plan applied.world after := by
  rcases activate_ok rfl returned with
    ⟨plan, applied, frozen, reached, checked, ran, froze, members, final⟩
  rcases Process.checks_ok checked with ⟨targets, distinctDepends⟩
  rcases applyHooks_ok ran with ⟨touched, entries⟩
  rcases freeze_ok froze with ⟨objects, others, resolvedTargets, resolvedDepends, written⟩
  have framed := attachAll_ok members
  have distinct : plan.targets.Nodup := by
    rw [targets]
    exact List.nodup_dedup _
  have keys : (plan.targets.map fun target =>
      (target, (applied.hooks.get? target).getD [])).map Prod.fst = plan.targets := by
    rw [List.map_map]
    exact List.map_id _
  have distinctKeys : ((plan.targets.map fun target =>
      (target, (applied.hooks.get? target).getD [])).map Prod.fst).Nodup := by
    rw [keys]
    exact distinct
  have sameHooks : after.hooks = applied.hooks := by rw [final, framed, written]
  have registered : forall target, target ∈ plan.targets ->
      after.hooks.get? target = some ((applied.hooks.get? target).getD []) := by
    intro target member
    rw [sameHooks]
    cases found : applied.hooks.get? target with
    | some listed => rfl
    | none =>
        have expected := entries target member
        rw [found, Option.getD_none] at expected
        rw [targets] at member
        rcases List.mem_map.mp (List.mem_dedup.mp member) with ⟨spec, declaredSpec, same⟩
        have listed : spec.registered ∈ expectedEntries plan.specs target :=
          List.mem_map_of_mem (List.mem_filter.mpr ⟨declaredSpec, decide_eq_true same⟩)
        rw [← expected] at listed
        exact absurd listed List.not_mem_nil
  refine ⟨plan, applied, checked, ran, ?_⟩
  exact {
    activated := by
      rw [final]
      exact Option.some_ne_none _
    attachedLive := by rw [final]
    applied := by
      have same : after.applied = (Dict.empty : Dict String Object).update objects := by
        rw [final, framed, written, touched]
        rfl
      rw [same]
      exact get?_resolved resolvedTargets distinct
    depends := by
      have same : after.frozenDepends = (Dict.empty : Dict String Object).update others := by
        rw [final, framed, written, touched]
        rfl
      rw [same]
      exact get?_resolved resolvedDepends distinctDepends
    hooks := by
      intro key listed
      have same : after.frozenHooks = (Dict.empty : Hooks Object).update
          (plan.targets.map fun target => (target, (applied.hooks.get? target).getD [])) := by
        rw [final, framed, written, touched]
        rfl
      rw [same, Dict.get?_update_iff distinctKeys, keys, Dict.get?_empty, List.mem_map]
      constructor
      · rintro (⟨target, member, same⟩ | ⟨_, absent⟩)
        · cases same
          exact ⟨member, registered _ member⟩
        · cases absent
      · rintro ⟨member, found⟩
        rw [registered key member] at found
        exact Or.inl ⟨key, member, by rw [Option.some.inj found]⟩
    registered := fun target member => ⟨_, registered target member⟩
    resolved := by
      intro name member
      have inside (names : List String) (items : List (String × Object))
          (found : interp.resolved applied.world names = .ok items) (listed : name ∈ names) :
          exists object, interp.rawAttribute applied.world name = .ok object := by
        have known := resolved_ok found
        rw [← known.1] at listed
        rcases List.mem_map.mp listed with ⟨item, held, same⟩
        exact ⟨item.2, same ▸ known.2 item held⟩
      rcases List.mem_append.mp member with target | dependency
      · exact inside plan.targets objects resolvedTargets target
      · exact inside plan.depends others resolvedDepends dependency }

/-- A check that fails leaves the process as it was, with no hook registered. -/
theorem activate_raises {self : Process World Object} {features : Features}
    {cause : PatchingError} (inactive : self.activated = none)
    (failed : self.checks interp files features = .error cause) :
    (activate interp files features).run self = .error cause self := by
  unfold activate
  simp only [EStateM.run_bind, EStateM.run_get, inactive]
  change EStateM.run (raising (self.checks interp files features) >>= _) self = _
  rw [failed]
  rfl

end Whole

end Patching
end QSAHiSparse
