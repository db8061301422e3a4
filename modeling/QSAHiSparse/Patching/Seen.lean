import QSAHiSparse.Patching.Activated

namespace QSAHiSparse
namespace Patching

open Foundation

/-!
# The final check sees every tampering

The plugin activates in a process with any declarations, any objects and any hooks
in the registry.  Then hooks are registered and objects are replaced in any order.
-/

section Seen

variable {World Object : Type} [DecidableEq Object] (interp : Interpreter World Object)
  (files : Installation)

/-- The plan of an activation, and the process whose hooks were applied.  What its
names resolve to there is frozen. -/
structure Activation (features : Features) (before : Process World Object) (plan : Plan Object)
    (applied : Process World Object) : Prop where
  checked : before.checks interp files features = .ok plan
  hooked : (applyHooks interp plan).run before = .ok ⟨⟩ applied
  resolved : forall name, name ∈ plan.targets ++ plan.depends ->
    exists object, interp.rawAttribute applied.world name = .ok object

/-- The registry or an object of a later process was tampered with. -/
def Tampered (plan : Plan Object) (applied after later : Process World Object) : Prop :=
  ForeignHook plan later.hooks ∨ ChangedHooks plan after.hooks later.hooks ∨
    ClaimingHook plan later.hooks ∨ Replaced interp plan applied.world later.world ∨
    Detached interp plan later.world

/-- Activation registers nothing unless all its checks pass.  After a successful
activation the final check raises exactly when a foreign hook is on or around a
protected name, the hooks of a target changed, a hook on another name claims this
plugin, or a target, a dependency or a member no longer resolves to its object. -/
theorem tampering_seen (appends : interp.Appends) (world : World) (hooks : Hooks Object)
    (patched : List String) (declared : List (PatchSpec Object))
    (attached : List (AttachSpec Object)) (features : Features) :
    let before := Process.started world hooks patched declared attached
    (forall cause, before.checks interp files features = .error cause ->
      (activate interp files features).run before = .error cause before) ∧
    forall specs after, (activate interp files features).run before = .ok specs after ->
      exists plan applied, Activation interp files features before plan applied ∧
        forall events,
          (exists cause, verifyFinal interp (interp.performAll after events) = .error cause) <->
            Tampered interp plan applied after (interp.performAll after events) := by
  intro before
  refine ⟨fun cause failed => activate_raises rfl failed, ?_⟩
  intro specs after returned
  rcases activate_frozen returned with ⟨plan, applied, checked, ran, frozen⟩
  refine ⟨plan, applied, ⟨checked, ran, frozen.resolved⟩, ?_⟩
  intro events
  have extended : after.Extends (interp.performAll after events) :=
    performAll_extends appends after events
  generalize interp.performAll after events = later at extended
  have activated : later.activated ≠ none := by
    rw [extended.frame]
    exact frozen.activated
  have accepts : verifyFinal interp later = .ok () <-> Intact interp later :=
    verifyFinal_ok_iff interp activated
  have raises : (exists cause, verifyFinal interp later = .error cause) <->
      ¬ verifyFinal interp later = .ok () := by
    cases verifyFinal interp later with
    | ok _ => exact ⟨fun ⟨_, absent⟩ => (nomatch absent), fun differ => absurd rfl differ⟩
    | error cause => exact ⟨fun _ => fun absent => (nomatch absent), fun _ => ⟨cause, rfl⟩⟩
  rw [raises, accepts, frozen.intact_iff extended]
  unfold Tampered
  simp only [not_and_or, not_not]

end Seen

/-! ## A small process -/

/-- The registry's own way to register. -/
def appended {Object : Type} (hooks : Hooks Object) (target : String) (hook : Hook Object) :
    Hooks Object :=
  hooks.set target ((hooks.get? target).getD [] ++ [hook])

/-- Modules whose members are texts. -/
def labelled : Interpreter (List (String × String)) String where
  resolveName _ path := .ok path
  isType _ := false
  ownDict _ _ _ := none
  mro _ _ := []
  getattr world owner name :=
    match world.lookup (owner ++ "." ++ name) with
    | some value => .ok value
    | none => .error (.attributeError name)
  setattr world owner name value := .ok ((owner ++ "." ++ name, value) :: world)
  isProperty _ := false
  register := appended
  applyTarget world target _ := .ok ((target, "patched") :: world)
  targetSortKey _ := 0

theorem labelled_appends : labelled.Appends := by
  constructor
  intro hooks target hook key
  exact Dict.get?_set hooks target key _

def smallFiles : Installation where
  manifest := [⟨"R1", "model_compat", [("m.f", "after")], [("m", "g")]⟩]
  fingerprints := 
    [ [("m.f", ⟨"m.py", "f", "function", 1, 1, "1", "2"⟩)],
      [("m.h", ⟨"m.py", "h", "function", 4, 4, "3", "2"⟩)] ]
  moduleSha256 _ := some "2"
  definitionSha256 _ _ := none

def modelFeatures : Features := ⟨true, none⟩

/-- A hook with a dependency. -/
def smallSpec : PatchSpec String := ⟨"m.f", .after, "hook", "model_compat", "R1", ["m.h"]⟩

def smallMember : AttachSpec String := ⟨"m", "g", "member", "model_compat", "R1", []⟩

def smallProcess (hooks : Hooks String) : Process (List (String × String)) String :=
  Process.started [("m.f", "original"), ("m.h", "helper")] hooks [] [smallSpec] [smallMember]

def smallPlan : Plan String :=
  ⟨[smallSpec], [smallMember], ["m.f"], ["m.h"], [("m.f", "original")]⟩

def foreignHook : Hook String := ⟨.after, "other", none⟩

/-- A hook above a target is seen, and a hook on a sibling that its text begins is
not taken for tampering. -/
theorem tampering_seen_small :
    exists specs after plan applied,
      (activate labelled smallFiles modelFeatures).run (smallProcess .empty) = .ok specs after ∧
      Activation labelled smallFiles modelFeatures (smallProcess .empty) plan applied ∧
      Tampered labelled plan applied after
        (labelled.performAll after [.register "m" foreignHook]) ∧
      ¬ Tampered labelled plan applied after
        (labelled.performAll after [.register "m.fx" foreignHook]) := by
  have seen := (tampering_seen labelled smallFiles labelled_appends
    [("m.f", "original"), ("m.h", "helper")] .empty [] [smallSpec] [smallMember]
    modelFeatures).2 _ _ rfl
  rcases seen with ⟨plan, applied, activation, tampered⟩
  refine ⟨_, _, plan, applied, rfl, activation, ?_, ?_⟩
  · exact (tampered [.register "m" foreignHook]).mp ⟨_, rfl⟩
  · intro holds
    rcases (tampered [.register "m.fx" foreignHook]).mpr holds with ⟨_, raised⟩
    cases raised

/-- A hook that claimed this plugin before the activation, on a name that nothing
protects. -/
def claimedBefore : Hooks String :=
  appended .empty "other.f" ⟨.after, "other", some ⟨pluginName, "other"⟩⟩

/-- The final check raises although nothing happened after the activation. -/
theorem raises_for_claim_before_activation :
    exists specs after plan applied cause,
      (activate labelled smallFiles modelFeatures).run (smallProcess claimedBefore) =
        .ok specs after ∧
      Activation labelled smallFiles modelFeatures (smallProcess claimedBefore) plan applied ∧
      verifyFinal labelled (labelled.performAll after []) = .error cause ∧
      ¬ ForeignHook plan after.hooks ∧ ¬ ChangedHooks plan after.hooks after.hooks ∧
      ¬ Replaced labelled plan applied.world after.world ∧ ¬ Detached labelled plan after.world := by
  refine ⟨_, _, smallPlan, _, _, rfl, ⟨rfl, rfl, ?_⟩, rfl, ?_, ?_, ?_, ?_⟩
  · intro name member
    rcases List.mem_cons.mp member with rfl | member
    · exact ⟨"patched", rfl⟩
    · rw [List.mem_singleton.mp member]
      exact ⟨"helper", rfl⟩
  · rintro ⟨key, entries, hook, name, found, member, foreign, protects, related⟩
    apply foreign
    exact (foreignOverlaps_nil_iff _ smallPlan.protectedNames).mp rfl key entries found hook member
      name protects related
  · rintro ⟨target, _, changed⟩
    exact changed rfl
  · rintro ⟨name, member, replaced⟩
    apply replaced
    rcases List.mem_cons.mp member with rfl | member
    · rfl
    · rw [List.mem_singleton.mp member]
      rfl
  · rintro ⟨spec, member, detached⟩
    apply detached
    rw [List.mem_singleton.mp member]
    rfl

end Patching
end QSAHiSparse
