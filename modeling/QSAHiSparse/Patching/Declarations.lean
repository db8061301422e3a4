import Mathlib.Data.List.Dedup
import Mathlib.Data.List.Lex
import Mathlib.Data.List.Sort
import Mathlib.Data.String.Basic
import QSAHiSparse.Foundation.DottedNames
import QSAHiSparse.Foundation.Fallible
import QSAHiSparse.Foundation.Python

namespace QSAHiSparse
namespace Patching

open Foundation

/-!
# Declarations of hooks and members

Patch modules declare hooks on definitions of SGLang and members to attach to
them.  `collect` takes the declarations of the active features and compares them
with each other and with the manifest; it reads only.
-/

/-- What the activation raises.  A message comes with the items that were found;
`python` is an exception of a lookup. -/
inductive PatchingError where
  | pluginActivation (message : String) (found : List (List String))
  | manifestDiffers (missing extra : List (List String))
  | fingerprintMismatch (problems : List String)
  | python (cause : PyError)
deriving DecidableEq, Repr

/-- `sorted(items)`. -/
def pySorted (items : List (List String)) : List (List String) :=
  items.insertionSort (· ≤ ·)

/-- `if items: raise PluginActivationError(message)`. -/
def raiseListed (message : String) (found : List (List String)) : Except PatchingError Unit :=
  if found = [] then .ok () else .error (.pluginActivation message found)

/-- The same with `items = sorted(found)`. -/
def raiseFound (message : String) (found : List (List String)) : Except PatchingError Unit :=
  raiseListed message (pySorted found)

theorem raiseListed_ok_iff {message : String} {found : List (List String)} :
    raiseListed message found = .ok () <-> found = [] := by
  unfold raiseListed
  by_cases none : found = []
  · rw [if_pos none]
    exact ⟨fun _ => none, fun _ => rfl⟩
  · rw [if_neg none]
    exact ⟨fun raised => (nomatch raised), fun empty => absurd empty none⟩

theorem raiseFound_ok_iff {message : String} {found : List (List String)} :
    raiseFound message found = .ok () <-> found = [] := by
  have sorted := List.perm_insertionSort (fun first second => first ≤ second) found
  unfold raiseFound pySorted
  rw [raiseListed_ok_iff]
  constructor
  · intro none
    rw [none] at sorted
    exact List.nil_perm.mp sorted
  · intro none
    rw [none] at sorted ⊢
    exact List.perm_nil.mp sorted

inductive HookType where
  | before
  | after
  | around
  | replace
deriving DecidableEq, Repr

def HookType.text : HookType -> String
  | .before => "before"
  | .after => "after"
  | .around => "around"
  | .replace => "replace"

def framework : String := "framework"

def pluginName : String := "qsa_hisparse"

def distName : String := "sglang-qsa-hisparse"

/-- The feature switches. -/
structure Features where
  modelCompat : Bool
  hisparseMode : Option String
deriving DecidableEq, Repr

def Features.active (features : Features) : List String :=
  (if features.modelCompat then ["model_compat"] else []) ++
    if features.hisparseMode = none then [] else ["hisparse"]

/-- `set(features.active) | {FRAMEWORK}`. -/
def Features.wanted (features : Features) : List String :=
  features.active ++ [framework]

structure PatchSpec (Object : Type) where
  target : String
  hookType : HookType
  hook : Object
  feature : String
  row : String
  depends : List String

structure AttachSpec (Object : Type) where
  owner : String
  name : String
  value : Object
  feature : String
  row : String
  depends : List String

def AttachSpec.target {Object : Type} (spec : AttachSpec Object) : String :=
  spec.owner ++ "." ++ spec.name

/-- A row of `manifest.json`. -/
structure ManifestEntry where
  row : String
  feature : String
  patches : List (String × String)
  attach : List (String × String)

variable {Object : Type}

/-- A declared hook as the manifest lists it. -/
def PatchSpec.entry (spec : PatchSpec Object) : List String :=
  ["patch", spec.feature, spec.row, spec.target, spec.hookType.text]

def AttachSpec.entry (spec : AttachSpec Object) : List String :=
  ["attach", spec.feature, spec.row, spec.target, ""]

/-- What the manifest expects of a row. -/
def ManifestEntry.entries (entry : ManifestEntry) : List (List String) :=
  (entry.patches.map fun patch => ["patch", entry.feature, entry.row, patch.1, patch.2]) ++
    entry.attach.map fun member =>
      ["attach", entry.feature, entry.row, member.1 ++ "." ++ member.2, ""]

def checkManifest (manifest : List ManifestEntry) (wanted : List String)
    (specs : List (PatchSpec Object)) (attaches : List (AttachSpec Object)) :
    Except PatchingError Unit := do
  let features := (wanted.filter fun feature => feature ≠ framework).insertionSort (· ≤ ·)
  features.forM fun feature =>
    if manifest.any fun entry => entry.feature = feature then .ok ()
    else .error (.pluginActivation ("Feature " ++ feature ++ " has no manifest rows") [])
  let expected := (manifest.filter fun entry => wanted.contains entry.feature).flatMap
    ManifestEntry.entries
  let declared := specs.map PatchSpec.entry ++ attaches.map AttachSpec.entry
  -- The difference of two counters: every occurrence takes one away.
  let missing := expected.diff declared
  let extra := declared.diff expected
  if missing ≠ [] ∨ extra ≠ [] then
    .error (.manifestDiffers (pySorted missing) (pySorted extra))
  else
    .ok ()

/-- The items that occur more than once. -/
def repeatedItems (items : List (List String)) : List (List String) :=
  (items.filter fun item => 1 < items.count item).dedup

/-- The loop over the `replace` hooks, with the targets that are replaced so far. -/
def checkReplaced (specs : List (PatchSpec Object)) (replaced : List String) :
    Except PatchingError Unit :=
  match specs with
  | [] => .ok ()
  | spec :: specs =>
      if spec.hookType ≠ .replace then checkReplaced specs replaced
      else if replaced.contains spec.target then
        .error (.pluginActivation ("Two REPLACE patches on " ++ spec.target) [])
      else checkReplaced specs (spec.target :: replaced)

/-- `collect`, after the imports that declare. `isType` is `isinstance(hook, type)`. -/
def collect (isType : Object -> Bool) (manifest : List ManifestEntry)
    (declared : List (PatchSpec Object)) (attached : List (AttachSpec Object))
    (features : Features) :
    Except PatchingError (List (PatchSpec Object) × List (AttachSpec Object)) := do
  let wanted := features.wanted
  let specs := declared.filter fun spec => wanted.contains spec.feature
  let attaches := attached.filter fun spec => wanted.contains spec.feature
  let keys := specs.map fun spec => [spec.feature, spec.row, spec.target, spec.hookType.text]
  raiseFound "Hooks declared more than once" (repeatedItems keys)
  checkReplaced specs []
  let classReplaced := ((specs.filter fun spec => spec.hookType = .replace && isType spec.hook).map
    PatchSpec.target).dedup
  raiseFound "Hooks on members of a replaced class (implement them in the replacement class instead)"
    (specs.flatMap fun spec =>
      (classReplaced.filter fun owner => startsWith spec.target (owner ++ ".")).map fun _ =>
        [spec.target])
  let targets := attaches.map fun spec => [spec.target]
  raiseFound "Members attached twice" (repeatedItems targets)
  raiseFound "Hooks on attached members"
    (targets.dedup.filter fun target => (specs.map fun spec => [spec.target]).contains target)
  checkManifest manifest wanted specs attaches
  pure (specs, attaches)

end Patching
end QSAHiSparse
