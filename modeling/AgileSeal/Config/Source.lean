import AgileSeal.Config.Document
import AgileSeal.FileSystem

set_option autoImplicit false

/-! # Where a configuration comes from

A configuration is read from a file, whose path an environment variable may give. Further
variables override its parameters; what comes out is checked again.
-/

namespace AgileSeal.Config

/-- The variable with the path of the configuration. -/
def pathVariable : String := "AGILITY_CONFIG"

/-- The complaint about a file that cannot be read. -/
def unreadable (path : String) (e : FileError) : Error :=
  .configuration ("cannot read configuration " ++ path ++ ": " ++ e.message)

/-- The configuration in a file. -/
def ofFile (files : FileSystem) (path : String) : Except Error Config :=
  match files.readText path with
  | .error e => .error (unreadable path e)
  | .ok document => ofJson document

/-- Overrides the parameters of a configuration and checks it again. -/
def withOverrides (c : Config) (env : Environment) : Logged (Except Error Config) := do
  let params ← c.params.withOverrides env
  -- an override may be a number and yet no sensible one
  let overridden := { c with params }
  return overridden.validate.map fun () => overridden

/-- The configuration whose path the environment gives, with its overrides. -/
def ofEnvironment (files : FileSystem) (env : Environment) : Logged (Except Error Config) :=
  match env.get? pathVariable with
  | none => pure (.error (.configuration (pathVariable ++ " is not set")))
  | some path =>
    match ofFile files path with
    | .error e => pure (.error e)
    | .ok c => c.withOverrides env

end AgileSeal.Config
