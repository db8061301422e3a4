import QSAHiSparse.Patching.Declarations

namespace QSAHiSparse
namespace Patching

open Foundation

/-!
# Activation and its final check

`activate` checks everything before it registers a hook, applies the hooks of its
own targets, and freezes what the protected names resolve to.  `verify_final`
compares the registry and the objects with what was frozen.
-/

/-- `HookSource`. -/
structure HookSource where
  pluginName : String
  distName : String
deriving DecidableEq, Repr

/-- An entry of the registry. -/
structure Hook (Object : Type) where
  hookType : HookType
  hook : Object
  source : Option HookSource
deriving DecidableEq

/-- `HookRegistry._hooks`. -/
abbrev Hooks (Object : Type) := Dict String (List (Hook Object))

/-- `_source()`. -/
def ownSource : HookSource := ⟨pluginName, distName⟩

/-- What patching uses of Python and of SGLang's registry.  `World` is the state of
the modules and classes. -/
structure Interpreter (World Object : Type) where
  resolveName : World -> String -> Except PyError Object
  isType : Object -> Bool
  ownDict : World -> Object -> String -> Option Object
  mro : World -> Object -> List Object
  getattr : World -> Object -> String -> Except PyError Object
  setattr : World -> Object -> String -> Object -> Except PyError World
  isProperty : Object -> Bool
  register : Hooks Object -> String -> Hook Object -> Hooks Object
  applyTarget : World -> String -> List (Hook Object) -> Except PyError World
  targetSortKey : String × List (Hook Object) -> Nat

/-- A record of `fingerprints/*.json`. -/
structure Pin where
  file : String
  qualname : String
  kind : String
  firstLine : Nat
  defLine : Nat
  sha256 : String
  moduleSha256 : String
deriving DecidableEq, Repr

/-- The files of the plugin, those with fingerprints in the order of their names, and the
installed modules by their hashes. -/
structure Installation where
  manifest : List ManifestEntry
  fingerprints : List (List (String × Pin))
  moduleSha256 : String -> Option String
  definitionSha256 : String -> String -> Option String

/-- The registry and the module variables of the plugin. -/
structure Process (World Object : Type) where
  world : World
  hooks : Hooks Object
  patched : List String
  declared : List (PatchSpec Object)
  attached : List (AttachSpec Object)
  activated : Option Features
  applied : Dict String Object
  frozenHooks : Hooks Object
  frozenDepends : Dict String Object
  attachedLive : List (AttachSpec Object)

/-! ## Lookups -/

section Lookups

variable {World Object : Type}

def python {α : Type} (result : Except PyError α) : Except PatchingError α :=
  result.mapError .python

/-- `target.rsplit(".", 1)`, when there is a dot. -/
def rsplitDot (target : String) : Option (String × String) :=
  let reversed := target.toList.reverse
  match reversed.dropWhile fun letter => letter ≠ '.' with
  | [] => none
  | _ :: owner =>
      some (String.ofList owner.reverse,
        String.ofList (reversed.takeWhile fun letter => letter ≠ '.').reverse)

/-- `_raw_attribute`. -/
def Interpreter.rawAttribute (interp : Interpreter World Object) (world : World)
    (target : String) : Except PyError Object :=
  match rsplitDot target with
  | none => .error (.valueError "not enough values to unpack (expected 2, got 1)")
  | some (ownerPath, name) => do
      let owner <- interp.resolveName world ownerPath
      match if interp.isType owner then interp.ownDict world owner name else none with
      | some value => pure value
      | none => interp.getattr world owner name

/-- `hasattr(owner, name)`. -/
def Interpreter.hasattr (interp : Interpreter World Object) (world : World) (owner : Object)
    (name : String) : Except PyError Bool :=
  match interp.getattr world owner name with
  | .ok _ => .ok true
  | .error (.attributeError _) => .ok false
  | .error cause => .error cause

/-- `_defines`. -/
def Interpreter.defines (interp : Interpreter World Object) (world : World) (owner : Object)
    (name : String) : Except PyError Bool :=
  if interp.isType owner then
    .ok ((interp.mro world owner).any fun klass => (interp.ownDict world klass name).isSome)
  else
    interp.hasattr world owner name

def overlaps (a b : String) : Bool :=
  a = b || startsWith a (b ++ ".") || startsWith b (a ++ ".")

end Lookups

/-! ## The checks -/

section Checks

variable {World Object : Type} [DecidableEq Object]

/-- `_foreign_overlaps`. -/
def foreignOverlaps (hooks : Hooks Object) (targets : List String) : List (List String) :=
  (hooks.items.filter fun entry =>
    (entry.2.any fun hook => hook.source ≠ some ownSource) &&
      targets.any fun target => overlaps entry.1 target).map fun entry => [entry.1]

/-- `_existing_entries`. -/
def existingEntries (hooks : Hooks Object) (names : List String) : List (List String) :=
  (hooks.items.filter fun entry =>
    !entry.2.isEmpty && names.any fun name => overlaps entry.1 name).map fun entry => [entry.1]

/-- `load_pinned`. -/
def Installation.loadPinned (files : Installation) : Except PatchingError (Dict String Pin) :=
  files.fingerprints.flatten.foldlM
    (fun pinned entry =>
      if pinned.get? entry.1 ≠ none ∧ pinned.get? entry.1 ≠ some entry.2 then
        .error (.fingerprintMismatch [entry.1 ++ ": conflicting pinned records"])
      else
        .ok (pinned.set entry.1 entry.2))
    Dict.empty

/-- What a pinned name lacks. -/
def Installation.problem (files : Installation) (pinned : Dict String Pin) (name : String) :
    Option String :=
  match pinned.get? name with
  | none => some (name ++ ": no pinned fingerprint")
  | some expected =>
      match files.moduleSha256 expected.file with
      | none => some (name ++ ": cannot read " ++ expected.file)
      | some actual =>
          if actual ≠ expected.moduleSha256 then
            let changed := match files.definitionSha256 expected.file expected.qualname with
              | none => "definition (missing)"
              | some definition =>
                  if definition ≠ expected.sha256 then "definition" else "module"
            some (name ++ ": " ++ changed ++ " differs from the pinned revision")
          else
            none

/-- `fingerprint.verify`. -/
def Installation.verify (files : Installation) (names : List String) :
    Except PatchingError Unit := do
  let pinned <- files.loadPinned
  let problems := names.filterMap (files.problem pinned)
  if problems ≠ [] then .error (.fingerprintMismatch problems) else .ok ()

/-- What the checks of an activation hand on. -/
structure Plan (Object : Type) where
  specs : List (PatchSpec Object)
  attaches : List (AttachSpec Object)
  targets : List String
  depends : List String
  originals : List (String × Object)

variable (interp : Interpreter World Object) (files : Installation)

/-- `activate` up to the first registration. -/
def Process.checks (self : Process World Object) (features : Features) :
    Except PatchingError (Plan Object) := do
  let (specs, attaches) <- collect interp.isType files.manifest self.declared self.attached features
  let targets := (specs.map PatchSpec.target).dedup
  let names := (specs.map PatchSpec.target ++ specs.flatMap PatchSpec.depends ++
    attaches.flatMap AttachSpec.depends).dedup
  files.verify (names.insertionSort (· ≤ ·))
  let properties <- specs.filterM fun spec => do
    let value <- python (interp.rawAttribute self.world spec.target)
    pure (interp.isProperty value)
  raiseFound "Properties cannot be hook targets" (properties.map fun spec => [spec.target])
  let depends := names.filter fun name => name ∉ targets
  raiseFound "Hooks already registered on or around protected names"
    (existingEntries self.hooks (targets ++ attaches.map AttachSpec.target ++ depends))
  let originals <- targets.mapM fun target => do
    let value <- python (interp.rawAttribute self.world target)
    pure (target, value)
  pure ⟨specs, attaches, targets, depends, originals⟩

end Checks

/-! ## Registration and application -/

section Activate

variable {World Object : Type} [DecidableEq Object] (interp : Interpreter World Object)
  (files : Installation)

/-- A step of an activation; what it wrote before an exception stays. -/
abbrev Activating (World Object : Type) := EStateM PatchingError (Process World Object)

def raising {α : Type} (check : Except PatchingError α) : Activating World Object α :=
  match check with
  | .ok value => pure value
  | .error cause => throw cause

/-- The registry entry of a declared hook. -/
def PatchSpec.registered (spec : PatchSpec Object) : Hook Object :=
  ⟨spec.hookType, spec.hook, some ownSource⟩

def registerSpecs (specs : List (PatchSpec Object)) : Activating World Object PUnit :=
  forM specs fun spec =>
    modify fun self => { self with hooks := interp.register self.hooks spec.target spec.registered }

/-- The entries that the declarations of a target make. -/
def expectedEntries (specs : List (PatchSpec Object)) (target : String) : List (Hook Object) :=
  (specs.filter fun spec => spec.target = target).map PatchSpec.registered

def checkEntries (plan : Plan Object) : Activating World Object PUnit := do
  let self <- get
  forM plan.targets fun target =>
    if (self.hooks.get? target).getD [] ≠ expectedEntries plan.specs target then
      throw (.pluginActivation ("Registry entries for " ++ target ++ " differ from declarations") [])
    else
      pure ⟨⟩

/-- The targets in the order of the registry's own pass. -/
def Interpreter.sortTargets (entries : List (String × List (Hook Object))) :
    List (String × List (Hook Object)) :=
  entries.insertionSort fun first second => interp.targetSortKey first ≤ interp.targetSortKey second

def applyTargets (plan : Plan Object) : Activating World Object PUnit := do
  let self <- get
  let ours := interp.sortTargets (plan.targets.map fun target =>
    (target, (self.hooks.get? target).getD []))
  forM ours fun entry => do
    let self <- get
    let world <- raising (python (interp.applyTarget self.world entry.1 entry.2))
    modify fun self => { self with world, patched := self.patched.insert entry.1 }

def checkApplied (plan : Plan Object) : Activating World Object PUnit := do
  let self <- get
  let failed <- raising (plan.originals.filterM fun entry => do
    let value <- python (interp.rawAttribute self.world entry.1)
    pure (decide (value = entry.2)))
  raising (raiseFound "Hooks were not applied to" (failed.map fun entry => [entry.1]))

/-- What names resolve to. -/
def Interpreter.resolved (world : World) (names : List String) :
    Except PatchingError (List (String × Object)) :=
  names.mapM fun name => do
    let value <- python (interp.rawAttribute world name)
    pure (name, value)

/-- `_applied`, `_frozen_hooks` and `_frozen_depends` are updated. -/
def freeze (plan : Plan Object) : Activating World Object PUnit := do
  let self <- get
  let applied <- raising (interp.resolved self.world plan.targets)
  modify fun self => { self with applied := self.applied.update applied }
  modify fun self =>
    { self with
      frozenHooks := self.frozenHooks.update
        (plan.targets.map fun target => (target, (self.hooks.get? target).getD [])) }
  let depends <- raising (interp.resolved self.world plan.depends)
  modify fun self => { self with frozenDepends := self.frozenDepends.update depends }

/-- `_verify_attached`. -/
def Interpreter.verifyAttached (world : World) (attaches : List (AttachSpec Object)) :
    Except PatchingError Unit := do
  let missing <- attaches.filterM fun spec => do
    let value <- python (interp.rawAttribute world spec.target)
    pure (decide (value ≠ spec.value))
  raiseListed "Members were not attached" (missing.map fun spec => [spec.target])

/-- `_attach_all`. -/
def attachAll (attaches : List (AttachSpec Object)) : Activating World Object PUnit := do
  let self <- get
  let owners <- raising (attaches.mapM fun spec => do
    let owner <- python (interp.resolveName self.world spec.owner)
    pure (spec, owner))
  let present <- raising (owners.filterM fun entry =>
    python (interp.defines self.world entry.2 entry.1.name))
  raising (raiseListed "Attach targets already defined upstream (pin drift)"
    (present.map fun entry => [entry.1.target]))
  forM owners fun entry => do
    let self <- get
    let world <- raising (python (interp.setattr self.world entry.2 entry.1.name entry.1.value))
    modify fun self => { self with world }
  let self <- get
  raising (interp.verifyAttached self.world attaches)

def activate (features : Features) : Activating World Object (List (PatchSpec Object)) := do
  let self <- get
  match self.activated with
  | some active =>
      if active ≠ features then
        throw (.pluginActivation "Already activated with other features"
          [active.active, features.active])
      else
        pure (self.declared.filter fun spec => features.wanted.contains spec.feature)
  | none => do
      let plan <- raising (self.checks interp files features)
      registerSpecs interp plan.specs
      checkEntries plan
      applyTargets interp plan
      checkApplied interp plan
      freeze interp plan
      attachAll interp plan.attaches
      modify fun self =>
        { self with attachedLive := plan.attaches, activated := some features }
      pure plan.specs

/-! ## The final check -/

/-- The keys whose hooks changed, or that claim this plugin without being its own. -/
def lateEntries (hooks frozenHooks : Hooks Object) : List (List String) :=
  (hooks.items.filter fun entry =>
    decide (entry.2 ≠ (frozenHooks.get? entry.1).getD entry.2) ||
      (!frozenHooks.contains entry.1 &&
        entry.2.any fun hook => hook.source.any fun source =>
          source.pluginName = pluginName)).map fun entry => [entry.1]

/-- `verify_final` up to the record that it writes. -/
def verifyFinal (self : Process World Object) : Except PatchingError Unit := do
  if self.activated = none then
    throw (.pluginActivation "verify_final called before activation" [])
  let targets := self.applied.keys ++ self.attachedLive.map AttachSpec.target ++
    self.frozenDepends.keys
  raiseFound "Other plugins registered overlapping hooks after activation"
    (foreignOverlaps self.hooks targets)
  raiseFound "Hooks registered after activation" (lateEntries self.hooks self.frozenHooks)
  let frozen := self.frozenDepends.update self.applied.items
  let changed <- frozen.items.filterM fun entry => do
    let value <- python (interp.rawAttribute self.world entry.1)
    pure (decide (value ≠ entry.2))
  raiseFound "Patched targets or dependencies were replaced afterwards"
    (changed.map fun entry => [entry.1])
  interp.verifyAttached self.world self.attachedLive

end Activate

end Patching
end QSAHiSparse
