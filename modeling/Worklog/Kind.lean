/-!
# Kinds of work and of updates

Every activity has a kind, and so has every update that is reported about one. On the wire a kind is
a number. The set of numbers is open: one that is not in the catalogue is kept as `other`, so that
what a newer program sends survives being passed on.

* `ActivityKind.ofCode_code_of_canonical`, `UpdateKind.ofCode_code_of_canonical` — reading back the
  number of a kind gives the kind, unless it is an `other` that hides a known number.
* `ActivityKind.code_ofCode`, `UpdateKind.code_ofCode` — no number is lost.
-/

namespace Worklog

/-! ## Kinds of activities -/

/-- What work an activity stands for. -/
inductive ActivityKind where
  | unknown
  | copyPath
  | fileTransfer
  | realise
  | copyPaths
  | builds
  | build
  | optimiseStore
  | verifyPaths
  | substitute
  | queryPathInfo
  | postBuildHook
  | buildWaiting
  | fetchTree
  | other (code : UInt64)
deriving DecidableEq, Repr, Inhabited

namespace ActivityKind

def code : ActivityKind → UInt64
  | unknown => 0
  | copyPath => 100
  | fileTransfer => 101
  | realise => 102
  | copyPaths => 103
  | builds => 104
  | build => 105
  | optimiseStore => 106
  | verifyPaths => 107
  | substitute => 108
  | queryPathInfo => 109
  | postBuildHook => 110
  | buildWaiting => 111
  | fetchTree => 112
  | other code => code

/-- The kinds that have a name of their own. -/
def catalogue : List ActivityKind :=
  [unknown, copyPath, fileTransfer, realise, copyPaths, builds, build, optimiseStore, verifyPaths,
    substitute, queryPathInfo, postBuildHook, buildWaiting, fetchTree]

/-- The kind with this number. -/
def ofCode (n : UInt64) : ActivityKind :=
  (catalogue.find? fun kind => kind.code == n).getD (other n)

def name : ActivityKind → String
  | unknown => "Unknown"
  | copyPath => "CopyPath"
  | fileTransfer => "FileTransfer"
  | realise => "Realise"
  | copyPaths => "CopyPaths"
  | builds => "Builds"
  | build => "Build"
  | optimiseStore => "OptimiseStore"
  | verifyPaths => "VerifyPaths"
  | substitute => "Substitute"
  | queryPathInfo => "QueryPathInfo"
  | postBuildHook => "PostBuildHook"
  | buildWaiting => "BuildWaiting"
  | fetchTree => "FetchTree"
  | other code => "Other(" ++ toString code.toNat ++ ")"

/-- A kind in the form that reading a number gives. -/
def Canonical (kind : ActivityKind) : Prop := ofCode kind.code = kind

instance (kind : ActivityKind) : Decidable kind.Canonical :=
  inferInstanceAs (Decidable (_ = _))

@[simp] theorem code_ofCode (n : UInt64) : (ofCode n).code = n := by
  unfold ofCode
  cases h : catalogue.find? fun kind => kind.code == n with
  | none => rfl
  | some kind => simpa using List.find?_some h

theorem canonical_ofCode (n : UInt64) : (ofCode n).Canonical := by
  simp [Canonical]

theorem ofCode_code_of_canonical {kind : ActivityKind} (h : kind.Canonical) :
    ofCode kind.code = kind := h

end ActivityKind

/-! ## Kinds of updates -/

/-- What an update about a running activity says. -/
inductive UpdateKind where
  | fileLinked
  /-- The first field is a line of build output. -/
  | buildLogLine
  | untrustedPath
  | corruptedPath
  /-- The first field is the name of the phase that begins. -/
  | setPhase
  /-- The fields count what is done, expected, running and failed. -/
  | progress
  /-- The fields are a kind of activity and how many of those are expected. -/
  | setExpected
  /-- The first field is a line that a hook printed after the build. -/
  | postBuildLogLine
  | fetchStatus
  | other (code : UInt64)
deriving DecidableEq, Repr, Inhabited

namespace UpdateKind

def code : UpdateKind → UInt64
  | fileLinked => 100
  | buildLogLine => 101
  | untrustedPath => 102
  | corruptedPath => 103
  | setPhase => 104
  | progress => 105
  | setExpected => 106
  | postBuildLogLine => 107
  | fetchStatus => 108
  | other code => code

/-- The kinds that have a name of their own. -/
def catalogue : List UpdateKind :=
  [fileLinked, buildLogLine, untrustedPath, corruptedPath, setPhase, progress, setExpected,
    postBuildLogLine, fetchStatus]

/-- The kind with this number. -/
def ofCode (n : UInt64) : UpdateKind :=
  (catalogue.find? fun kind => kind.code == n).getD (other n)

def name : UpdateKind → String
  | fileLinked => "FileLinked"
  | buildLogLine => "BuildLogLine"
  | untrustedPath => "UntrustedPath"
  | corruptedPath => "CorruptedPath"
  | setPhase => "SetPhase"
  | progress => "Progress"
  | setExpected => "SetExpected"
  | postBuildLogLine => "PostBuildLogLine"
  | fetchStatus => "FetchStatus"
  | other code => "Other(" ++ toString code.toNat ++ ")"

/-- A kind in the form that reading a number gives. -/
def Canonical (kind : UpdateKind) : Prop := ofCode kind.code = kind

instance (kind : UpdateKind) : Decidable kind.Canonical :=
  inferInstanceAs (Decidable (_ = _))

@[simp] theorem code_ofCode (n : UInt64) : (ofCode n).code = n := by
  unfold ofCode
  cases h : catalogue.find? fun kind => kind.code == n with
  | none => rfl
  | some kind => simpa using List.find?_some h

theorem canonical_ofCode (n : UInt64) : (ofCode n).Canonical := by
  simp [Canonical]

theorem ofCode_code_of_canonical {kind : UpdateKind} (h : kind.Canonical) :
    ofCode kind.code = kind := h

end UpdateKind

end Worklog
