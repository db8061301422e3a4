import Mathlib.Data.List.Induction
import QSAHiSparse.Foundation.Effects
import QSAHiSparse.Patching.FinalCheck

namespace QSAHiSparse
namespace Patching

open Foundation

/-!
# Tampering is seen

A successful activation freezes the hooks of its targets and what its targets and
dependencies resolve to.  Whatever is registered or replaced afterwards, the final
check of the process raises exactly when something that is protected was tampered
with.
-/

/-- What happens to the registry and to the modules after an activation. -/
inductive Event (World Object : Type) where
  | register (target : String) (hook : Hook Object)
  | replace (world : World)

section Events

variable {World Object : Type} (interp : Interpreter World Object)

/-- `HookRegistry.register` appends the hook to the entries of its target. -/
structure Interpreter.Appends : Prop where
  appends : forall hooks target hook key, (interp.register hooks target hook).get? key =
    if key = target then some ((hooks.get? target).getD [] ++ [hook]) else hooks.get? key

def Interpreter.perform (self : Process World Object) : Event World Object -> Process World Object
  | .register target hook => { self with hooks := interp.register self.hooks target hook }
  | .replace world => { self with world }

def Interpreter.performAll (self : Process World Object) (events : List (Event World Object)) :
    Process World Object :=
  events.foldl interp.perform self

/-- Registrations and replacements reach no variable of the plugin, and keep every
hook that is registered. -/
structure Process.Extends (process later : Process World Object) : Prop where
  frame : later = { process with world := later.world, hooks := later.hooks }
  hooks : forall key entries, process.hooks.get? key = some entries ->
    exists more, later.hooks.get? key = some (entries ++ more)

theorem Process.Extends.refl (self : Process World Object) : self.Extends self where
  frame := rfl
  hooks := fun _ entries found => ⟨[], by rw [List.append_nil]; exact found⟩

variable {interp}

theorem perform_extends (appends : interp.Appends) {self between : Process World Object}
    (extended : self.Extends between) (event : Event World Object) :
    self.Extends (interp.perform between event) := by
  have frame := extended.frame
  cases event with
  | replace world => exact ⟨by rw [frame]; rfl, extended.hooks⟩
  | register target hook =>
      refine ⟨by rw [frame]; rfl, ?_⟩
      intro key entries found
      rcases extended.hooks key entries found with ⟨more, held⟩
      change exists more, (interp.register between.hooks target hook).get? key = _
      rw [appends.appends]
      by_cases same : key = target
      · rw [if_pos same, ← same, held, Option.getD_some, List.append_assoc]
        exact ⟨more ++ [hook], rfl⟩
      · rw [if_neg same]
        exact ⟨more, held⟩

/-- After any events the process extends the one it was. -/
theorem performAll_extends (appends : interp.Appends) (self : Process World Object)
    (events : List (Event World Object)) : self.Extends (interp.performAll self events) := by
  induction events using List.reverseRecOn with
  | nil => exact Process.Extends.refl self
  | append_singleton events event previous =>
      unfold Interpreter.performAll at previous ⊢
      rw [List.foldl_append]
      exact perform_extends appends previous event

end Events

/-! ## What counts as tampering -/

section Tampering

variable {World Object : Type} (interp : Interpreter World Object)

/-- The names that a plan protects. -/
def Plan.protectedNames (plan : Plan Object) : List String :=
  plan.targets ++ plan.attaches.map AttachSpec.target ++ plan.depends

/-- A hook that is not exactly from this plugin is on a name that is equal to, above
or below a protected name. -/
def ForeignHook (plan : Plan Object) (hooks : Hooks Object) : Prop :=
  exists key entries hook name, hooks.get? key = some entries ∧ hook ∈ entries ∧
    hook.source ≠ some ownSource ∧ name ∈ plan.protectedNames ∧ Related key name

/-- The hooks of a target are not those of the activation. -/
def ChangedHooks (plan : Plan Object) (activated hooks : Hooks Object) : Prop :=
  exists target, target ∈ plan.targets ∧ hooks.get? target ≠ activated.get? target

/-- A hook that claims this plugin is on a name that is no target. -/
def ClaimingHook (plan : Plan Object) (hooks : Hooks Object) : Prop :=
  exists key entries hook, hooks.get? key = some entries ∧ hook ∈ entries ∧
    key ∉ plan.targets ∧ hook.ClaimsPlugin

/-- A target or a dependency does not resolve to its object in the frozen world. -/
def Replaced (plan : Plan Object) (frozen world : World) : Prop :=
  exists name, name ∈ plan.targets ++ plan.depends ∧
    interp.rawAttribute world name ≠ interp.rawAttribute frozen name

/-- A member does not resolve to the value that was attached. -/
def Detached (plan : Plan Object) (world : World) : Prop :=
  exists spec, spec ∈ plan.attaches ∧ interp.rawAttribute world spec.target ≠ .ok spec.value

/-- What a successful activation leaves in the variables of the plugin, where `world`
is what the hooks left. -/
structure Frozen (plan : Plan Object) (world : World) (after : Process World Object) : Prop where
  activated : after.activated ≠ none
  attachedLive : after.attachedLive = plan.attaches
  applied : forall name object, after.applied.get? name = some object <->
    name ∈ plan.targets ∧ interp.rawAttribute world name = .ok object
  depends : forall name object, after.frozenDepends.get? name = some object <->
    name ∈ plan.depends ∧ interp.rawAttribute world name = .ok object
  hooks : forall key entries, after.frozenHooks.get? key = some entries <->
    key ∈ plan.targets ∧ after.hooks.get? key = some entries
  registered : forall target, target ∈ plan.targets ->
    exists entries, after.hooks.get? target = some entries
  resolved : forall name, name ∈ plan.targets ++ plan.depends ->
    exists object, interp.rawAttribute world name = .ok object

namespace Frozen

variable {interp} {plan : Plan Object} {world : World} {after later : Process World Object}

theorem mem_protected (frozen : Frozen interp plan world after) (name : String) :
    name ∈ after.protectedNames <-> name ∈ plan.protectedNames := by
  have targets : name ∈ after.applied.keys <-> name ∈ plan.targets := by
    rw [Dict.mem_keys_iff]
    constructor
    · rintro ⟨object, held⟩
      exact ((frozen.applied name object).mp held).1
    · intro member
      rcases frozen.resolved name (List.mem_append_left _ member) with ⟨object, resolves⟩
      exact ⟨object, (frozen.applied name object).mpr ⟨member, resolves⟩⟩
  have depends : name ∈ after.frozenDepends.keys <-> name ∈ plan.depends := by
    rw [Dict.mem_keys_iff]
    constructor
    · rintro ⟨object, held⟩
      exact ((frozen.depends name object).mp held).1
    · intro member
      rcases frozen.resolved name (List.mem_append_right _ member) with ⟨object, resolves⟩
      exact ⟨object, (frozen.depends name object).mpr ⟨member, resolves⟩⟩
  unfold Process.protectedNames Plan.protectedNames
  rw [List.mem_append, List.mem_append, List.mem_append, List.mem_append, targets, depends,
    frozen.attachedLive]

/-- The frozen objects are what the names resolved to. -/
theorem object_iff (frozen : Frozen interp plan world after) (name : String) (object : Object) :
    (after.frozenDepends.update after.applied.items).get? name = some object <->
      name ∈ plan.targets ++ plan.depends ∧ interp.rawAttribute world name = .ok object := by
  rw [Dict.get?_update_iff after.applied.nodup, ← Dict.get?_eq_some_iff, frozen.applied,
    frozen.depends, List.mem_append]
  constructor
  · rintro (⟨member, resolves⟩ | ⟨_, member, resolves⟩)
    · exact ⟨Or.inl member, resolves⟩
    · exact ⟨Or.inr member, resolves⟩
  · rintro ⟨member, resolves⟩
    by_cases target : name ∈ plan.targets
    · exact Or.inl ⟨target, resolves⟩
    · refine Or.inr ⟨?_, member.resolve_left target, resolves⟩
      intro listed
      rcases Dict.mem_keys_iff.mp listed with ⟨other, held⟩
      exact target ((frozen.applied name other).mp held).1

/-- The final check of a later process accepts exactly when nothing was tampered
with. -/
theorem intact_iff (frozen : Frozen interp plan world after) (extended : after.Extends later) :
    Intact interp later <->
      ¬ ForeignHook plan later.hooks ∧ ¬ ChangedHooks plan after.hooks later.hooks ∧
        ¬ ClaimingHook plan later.hooks ∧ ¬ Replaced interp plan world later.world ∧
        ¬ Detached interp plan later.world := by
  have protectedNames : later.protectedNames = after.protectedNames := by rw [extended.frame]; rfl
  have frozenHooks : later.frozenHooks = after.frozenHooks := by rw [extended.frame]
  have objects : later.frozenDepends.update later.applied.items =
      after.frozenDepends.update after.applied.items := by rw [extended.frame]
  have members : later.attachedLive = plan.attaches := by
    rw [extended.frame]
    exact frozen.attachedLive
  constructor
  · intro intact
    refine ⟨?_, ?_, ?_, ?_, ?_⟩
    · rintro ⟨key, entries, hook, name, found, member, foreign, protects, related⟩
      apply foreign
      apply intact.own key entries found hook member name _ related
      rw [protectedNames]
      exact (frozen.mem_protected name).mpr protects
    · rintro ⟨target, member, changed⟩
      rcases frozen.registered target member with ⟨entries, held⟩
      rcases extended.hooks target entries held with ⟨more, found⟩
      have same := intact.kept target _ found entries (by
        rw [frozenHooks]
        exact (frozen.hooks target entries).mpr ⟨member, held⟩)
      rw [found, held, same] at changed
      exact changed rfl
    · rintro ⟨key, entries, hook, found, member, untargeted, claims⟩
      refine intact.unclaimed key entries found ?_ hook member claims
      rw [frozenHooks, Option.eq_none_iff_forall_ne_some]
      exact fun others held => untargeted ((frozen.hooks key others).mp held).1
    · rintro ⟨name, member, replaced⟩
      rcases frozen.resolved name member with ⟨object, resolves⟩
      apply replaced
      rw [resolves]
      apply intact.resolves name object
      rw [objects]
      exact (frozen.object_iff name object).mpr ⟨member, resolves⟩
    · rintro ⟨spec, member, detached⟩
      apply detached
      apply intact.holds
      rw [members]
      exact member
  · rintro ⟨foreign, changed, claiming, replaced, detached⟩
    constructor
    · intro key entries found hook member name protects related
      by_contra other
      rw [protectedNames] at protects
      exact foreign ⟨key, entries, hook, name, found, member, other,
        (frozen.mem_protected name).mp protects, related⟩
    · intro key entries found kept held
      rw [frozenHooks] at held
      have target := (frozen.hooks key kept).mp held
      by_contra different
      apply changed
      refine ⟨key, target.1, ?_⟩
      rw [found, target.2]
      exact fun same => different (Option.some.inj same)
    · intro key entries found absent hook member claims
      rw [frozenHooks] at absent
      apply claiming
      refine ⟨key, entries, hook, found, member, ?_, claims⟩
      intro target
      rcases frozen.registered key target with ⟨others, held⟩
      rw [(frozen.hooks key others).mpr ⟨target, held⟩] at absent
      cases absent
    · intro name object held
      rw [objects] at held
      have resolves := (frozen.object_iff name object).mp held
      by_contra other
      apply replaced
      refine ⟨name, resolves.1, ?_⟩
      rw [resolves.2]
      exact other
    · intro spec member
      rw [members] at member
      by_contra other
      exact detached ⟨spec, member, other⟩

end Frozen

end Tampering

end Patching
end QSAHiSparse
