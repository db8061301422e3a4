import QSAHiSparse.Patching.Activation

namespace QSAHiSparse
namespace Patching

open Foundation

/-!
# What the final check accepts

The final check returns exactly when no hook of another plugin is related to a
protected name, the frozen hooks are in the registry unchanged, no other key has a
hook that claims this plugin, and every frozen name still resolves to its object.
-/

/-- A hook that claims to come from this plugin. -/
def Hook.ClaimsPlugin {Object : Type} (hook : Hook Object) : Prop :=
  exists source, hook.source = some source ∧ source.pluginName = pluginName

theorem overlaps_iff (first second : String) :
    overlaps first second = true <-> Related first second := by
  unfold overlaps
  rw [Bool.or_eq_true, Bool.or_eq_true, decide_eq_true_eq, or_assoc, related_iff]

theorem python_ok_iff {α : Type} {result : Except PyError α} {value : α} :
    python result = .ok value <-> result = .ok value := by
  cases result with
  | ok found => exact ⟨fun same => by rw [Except.ok.inj same], fun same => by rw [same]; rfl⟩
  | error cause => exact ⟨fun absent => (nomatch absent), fun absent => (nomatch absent)⟩

section Registry

variable {Object : Type}

theorem foreignOverlaps_nil_iff (hooks : Hooks Object) (targets : List String) :
    foreignOverlaps hooks targets = [] <->
      forall key entries, hooks.get? key = some entries -> forall hook, hook ∈ entries ->
        forall target, target ∈ targets -> Related key target ->
          hook.source = some ownSource := by
  unfold foreignOverlaps
  rw [List.map_eq_nil_iff, List.filter_eq_nil_iff]
  constructor
  · intro none key entries found hook member target protects related
    by_contra foreign
    apply none (key, entries) (Dict.get?_eq_some_iff.mp found)
    rw [Bool.and_eq_true, List.any_eq_true, List.any_eq_true]
    exact ⟨⟨hook, member, decide_eq_true foreign⟩, target, protects,
      (overlaps_iff key target).mpr related⟩
  · intro own entry present found
    rw [Bool.and_eq_true, List.any_eq_true, List.any_eq_true] at found
    rcases found with ⟨⟨hook, member, foreign⟩, target, protects, related⟩
    exact of_decide_eq_true foreign (own entry.1 entry.2 (Dict.get?_eq_some_iff.mpr present) hook
      member target protects ((overlaps_iff entry.1 target).mp related))

theorem claims_iff (hook : Hook Object) :
    (hook.source.any fun source => source.pluginName = pluginName) = true <->
      hook.ClaimsPlugin := by
  unfold Hook.ClaimsPlugin
  cases hook.source with
  | none => exact ⟨fun absent => (nomatch absent), fun ⟨_, absent, _⟩ => (nomatch absent)⟩
  | some source =>
      rw [Option.any_some, decide_eq_true_eq]
      exact ⟨fun claims => ⟨source, rfl, claims⟩, fun ⟨_, same, claims⟩ => by
        rw [Option.some.inj same]
        exact claims⟩

theorem lateEntries_nil_iff [DecidableEq Object] (hooks frozenHooks : Hooks Object) :
    lateEntries hooks frozenHooks = [] <->
      forall key entries, hooks.get? key = some entries ->
        (forall frozen, frozenHooks.get? key = some frozen -> entries = frozen) ∧
          (frozenHooks.get? key = none -> forall hook, hook ∈ entries ->
            ¬ hook.ClaimsPlugin) := by
  unfold lateEntries
  rw [List.map_eq_nil_iff, List.filter_eq_nil_iff]
  constructor
  · intro none key entries found
    have kept := none (key, entries) (Dict.get?_eq_some_iff.mp found)
    rw [Bool.or_eq_true, not_or] at kept
    constructor
    · intro frozen held
      have same := kept.1
      rw [held, Option.getD_some, decide_eq_true_eq, not_not] at same
      exact same
    · intro absent hook member claims
      apply kept.2
      have unlisted : frozenHooks.contains key = false := by
        rw [← Bool.not_eq_true, Dict.contains_iff, not_not]
        exact absent
      rw [unlisted, Bool.not_false, Bool.true_and, List.any_eq_true]
      exact ⟨hook, member, (claims_iff hook).mpr claims⟩
  · intro kept entry present found
    have held := kept entry.1 entry.2 (Dict.get?_eq_some_iff.mpr present)
    rcases Bool.or_eq_true_iff.mp found with changed | claimed
    · cases frozen : frozenHooks.get? entry.1 with
      | none =>
          rw [frozen, Option.getD_none, decide_eq_true_eq] at changed
          exact changed rfl
      | some entries =>
          rw [frozen, Option.getD_some, decide_eq_true_eq] at changed
          exact changed (held.1 entries frozen)
    · rw [Bool.and_eq_true, List.any_eq_true] at claimed
      rcases claimed with ⟨unlisted, hook, member, claims⟩
      have absent : frozenHooks.get? entry.1 = none := by
        have missing : ¬ frozenHooks.contains entry.1 = true := by simpa using unlisted
        rwa [Dict.contains_iff, not_not] at missing
      exact held.2 absent hook member ((claims_iff hook).mp claims)

end Registry

section Objects

variable {World Object : Type} [DecidableEq Object] (interp : Interpreter World Object)

/-- The test of a name against its object passes when the name resolves to it. -/
theorem unchanged_iff (world : World) (name : String) (object : Object) :
    (do
      let value <- python (interp.rawAttribute world name)
      pure (decide (value ≠ object)) : Except PatchingError Bool) = .ok false <->
      interp.rawAttribute world name = .ok object := by
  cases found : interp.rawAttribute world name with
  | error cause => exact ⟨fun absent => (nomatch absent), fun absent => (nomatch absent)⟩
  | ok value =>
      change Except.ok (decide (value ≠ object)) = Except.ok false <-> _
      constructor
      · intro same
        rw [not_not.mp (of_decide_eq_false (Except.ok.inj same))]
      · intro same
        rw [Except.ok.inj same, decide_eq_false (not_not.mpr rfl)]

theorem verifyAttached_ok_iff (world : World) (attaches : List (AttachSpec Object)) :
    interp.verifyAttached world attaches = .ok () <->
      forall spec, spec ∈ attaches -> interp.rawAttribute world spec.target = .ok spec.value := by
  unfold Interpreter.verifyAttached
  constructor
  · intro passed
    rcases Except.bind_ok passed with ⟨missing, filtered, none⟩
    rw [List.map_eq_nil_iff.mp (raiseListed_ok_iff.mp none)] at filtered
    exact fun spec member => (unchanged_iff interp world _ _).mp
      (filterM_nil_iff.mp filtered spec member)
  · intro resolves
    have filtered := filterM_nil_iff.mpr fun spec member =>
      (unchanged_iff interp world _ _).mpr (resolves spec member)
    rw [filtered]
    rfl

/-- The names of a dictionary resolve to what the dictionary holds. -/
theorem resolving_iff (world : World) (frozen : Dict String Object) :
    (frozen.items.filterM fun entry => do
      let value <- python (interp.rawAttribute world entry.1)
      pure (decide (value ≠ entry.2)) : Except PatchingError (List (String × Object))) = .ok [] <->
      forall name object, frozen.get? name = some object ->
        interp.rawAttribute world name = .ok object := by
  rw [filterM_nil_iff]
  constructor
  · exact fun unchanged name object held => (unchanged_iff interp world name object).mp
      (unchanged (name, object) (Dict.get?_eq_some_iff.mp held))
  · exact fun resolves entry member => (unchanged_iff interp world entry.1 entry.2).mpr
      (resolves entry.1 entry.2 (Dict.get?_eq_some_iff.mpr member))

/-- The protected names of a process that activated. -/
def Process.protectedNames (self : Process World Object) : List String :=
  self.applied.keys ++ self.attachedLive.map AttachSpec.target ++ self.frozenDepends.keys

/-- What the final check of an activated process asks for. -/
structure Intact (process : Process World Object) : Prop where
  own : forall key entries, process.hooks.get? key = some entries -> forall hook, hook ∈ entries ->
    forall name, name ∈ process.protectedNames -> Related key name -> hook.source = some ownSource
  kept : forall key entries, process.hooks.get? key = some entries -> forall frozen,
    process.frozenHooks.get? key = some frozen -> entries = frozen
  unclaimed : forall key entries, process.hooks.get? key = some entries ->
    process.frozenHooks.get? key = none -> forall hook, hook ∈ entries -> ¬ hook.ClaimsPlugin
  resolves : forall name object,
    (process.frozenDepends.update process.applied.items).get? name = some object ->
      interp.rawAttribute process.world name = .ok object
  holds : forall spec, spec ∈ process.attachedLive ->
    interp.rawAttribute process.world spec.target = .ok spec.value

theorem verifyFinal_ok_iff {self : Process World Object} (activated : self.activated ≠ none) :
    verifyFinal interp self = .ok () <-> Intact interp self := by
  unfold verifyFinal
  rw [if_neg activated]
  constructor
  · intro passed
    rcases Except.bind_ok passed with ⟨_, overlapping, passed⟩
    rcases Except.bind_ok passed with ⟨_, late, passed⟩
    rcases Except.bind_ok passed with ⟨changed, filtered, passed⟩
    rcases Except.bind_ok passed with ⟨_, unchanged, attached⟩
    rw [List.map_eq_nil_iff.mp (raiseFound_ok_iff.mp unchanged)] at filtered
    have registered := (lateEntries_nil_iff _ _).mp (raiseFound_ok_iff.mp late)
    exact {
      own := (foreignOverlaps_nil_iff _ _).mp (raiseFound_ok_iff.mp overlapping)
      kept := fun key entries found => (registered key entries found).1
      unclaimed := fun key entries found => (registered key entries found).2
      resolves := (resolving_iff interp _ _).mp filtered
      holds := (verifyAttached_ok_iff interp _ _).mp attached }
  · intro intact
    have overlapping := (foreignOverlaps_nil_iff self.hooks self.protectedNames).mpr intact.own
    have late := (lateEntries_nil_iff self.hooks self.frozenHooks).mpr fun key entries found =>
      ⟨intact.kept key entries found, intact.unclaimed key entries found⟩
    have unchanged := (resolving_iff interp self.world _).mpr intact.resolves
    have attached := (verifyAttached_ok_iff interp self.world _).mpr intact.holds
    change (raiseFound _ (foreignOverlaps self.hooks self.protectedNames) >>= fun _ =>
      raiseFound _ (lateEntries self.hooks self.frozenHooks) >>= fun _ => _) = _
    rw [raiseFound_ok_iff.mpr overlapping, Except.ok_bind, raiseFound_ok_iff.mpr late,
      Except.ok_bind]
    change ((self.frozenDepends.update self.applied.items).items.filterM _ >>= fun changed =>
      raiseFound _ (changed.map _) >>= fun _ => _) = _
    rw [unchanged]
    exact attached

end Objects

end Patching
end QSAHiSparse
