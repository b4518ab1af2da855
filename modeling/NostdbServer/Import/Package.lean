import NostdbServer.Daemon.Access
import NostdbServer.Effects.UnixPath

/-!
# Logical packages

`import_logical` of the daemon and `import_logical_package` of the HTTP adapter
lay out a package in a directory of its own, have the engine compile it there
and restore the result as a snapshot. They differ in how they report errors and
in what they do with the compiled candidate; the part up to the last module is
one program. What the engine answers is not determined by anything modelled here.
-/

namespace NostdbServer

open Effects

-- ---------------------------------------------------------------------------
-- Module paths
-- ---------------------------------------------------------------------------

/-- The check of both importers, with the way they report it. -/
def checkedModulePath (error : String → ε) (value : String) : Except ε PathBuf :=
  let path : PathBuf := ⟨value⟩
  if value.isEmpty || path.isAbsolute || path.components.any (!·.isNormal) ||
      path.extension ≠ some ['n', 'o', 's', 't'] then
    .error (error s!"invalid logical module path `{value}`")
  else .ok path

def safeModulePath : String → Except ProtocolFailure PathBuf :=
  checkedModulePath (.new .queryError)

-- ---------------------------------------------------------------------------
-- The directory of an import
-- ---------------------------------------------------------------------------

/-- The steps of a logical import in its own directory. -/
inductive ScratchOp
  | createDirectory
  | writeSettings (settings : String)
  | loadConfig
  | createParent (path : PathBuf)
  | writeModule (path : PathBuf) (source : String)
  | synchronize
  | openCandidate
  | adoptServerAuthority
  | checkpointCandidate
  | readCandidate
  | removeDirectory

/-- A loaded `ProjectConfig` tells the module identifier of a path. -/
def ScratchOp.Ans : ScratchOp → Type
  | .loadConfig => Except String (PathBuf → Option String)
  | .readCandidate => Except String Bytes
  | _ => Except String Unit

abbrev scratch : Signature := ⟨ScratchOp, ScratchOp.Ans⟩

def inScratch (o : ScratchOp) : Prog scratch ε o.Ans := Prog.call (S := scratch) o

/-- A step that yields nothing, with the error it is reported as. -/
def scratchStep (step : Prog scratch ε (Except String Unit)) (error : String → ε) :
    Prog scratch ε Unit := do
  Prog.ofExcept ((← step).mapError error)

/-- How an importer reports what goes wrong before the package is compiled. The
errors about an identifier are given the path of its module. -/
structure PackageErrors (ε : Type) where
  internal : String → ε
  invalidConfig : String → ε
  invalidPath : String → ε
  repeats : ε
  invalidId : String → ε
  mismatch : String → ε

section
variable (errors : PackageErrors ε) (parseModuleId : String → Option String)

/-- `seen` are the paths of the modules before. -/
def writeModules (moduleId : PathBuf → Option String) :
    List PathBuf → List LogicalModuleDocument → Prog scratch ε Unit
  | _, [] => pure ()
  | seen, document :: rest => do
    let path ← Prog.ofExcept (checkedModulePath errors.invalidPath document.path)
    if seen.any path.same then .fail errors.repeats
    else
      match parseModuleId document.stableModuleId with
      | none => .fail (errors.invalidId document.path)
      | some id =>
        if moduleId path ≠ some id then .fail (errors.mismatch document.path)
        else
          scratchStep (inScratch (.createParent path)) errors.internal
          scratchStep (inScratch (.writeModule path document.source)) errors.internal
          writeModules moduleId (path :: seen) rest

def writeSettings (settings : String) : Prog scratch ε (PathBuf → Option String) := do
  scratchStep (inScratch (.writeSettings settings)) errors.internal
  match ← inScratch .loadConfig with
  | .error error => .fail (errors.invalidConfig error)
  | .ok moduleId => pure moduleId

def layPackage (package : LogicalPackageDocument) : Prog scratch ε Unit := do
  let moduleId ← writeSettings errors package.settings
  writeModules errors parseModuleId moduleId [] package.modules

end

-- ---------------------------------------------------------------------------
-- The daemon
-- ---------------------------------------------------------------------------

def packageErrors : PackageErrors ProtocolFailure where
  internal := internal
  invalidConfig := .new .queryError
  invalidPath := .new .queryError
  repeats := .new .queryError "logical package repeats a module path"
  invalidId _ := .new .queryError "invalid stable Module ID"
  mismatch path := .new .queryError s!"stable Module ID does not match settings.json for {path}"

/-- The closure of `import_logical` up to the restore. -/
def compilePackage (parseModuleId : String → Option String) (package : LogicalPackageDocument) :
    Prog scratch ProtocolFailure Bytes := do
  layPackage packageErrors parseModuleId package
  scratchStep (inScratch .synchronize) (.new .queryError)
  match ← inScratch .readCandidate with
  | .error error => .fail (internal error)
  | .ok bytes => pure bytes

end NostdbServer
