import Scriptlet.Files.Path
import Scriptlet.Text.Bytes
import Scriptlet.Yaml.Style

/-!
# Manifests

A manifest describes a module: its name, the source file that is run, and how
much is logged. It is kept in a file as a list of keys with values.
-/

namespace Scriptlet

/-- The description of a module. An empty text stands for what is not given. -/
structure Manifest where
  package : String := ""
  entry : String := ""
  logLevel : String := ""
deriving DecidableEq, Repr, Inhabited

namespace Manifest

/-- The file that is looked for if no other is named. -/
def defaultPath : String := "peri.yml"

/-- The manifest of a new module. -/
def initial (name : String) : Manifest where
  package := name
  entry := "main.peri"

/-- The lines for a key and its value. -/
def lines (key value : String) : String :=
  let written := String.ofList (Yaml.Style.write (key.length + 2) value)
  key ++ ": " ++ written ++ if Yaml.Style.leavesLineOpen value.toList then "\n" else ""

/-- The text of a manifest. The log level is left out if it is not given. -/
def text (manifest : Manifest) : String :=
  lines "package" manifest.package ++ lines "entry" manifest.entry ++
    if manifest.logLevel = "" then "" else lines "log-level" manifest.logLevel

/-- The text of a manifest as it is stored. -/
def write (manifest : Manifest) : Bytes :=
  Bytes.ofString manifest.text

/-- The path of the source file that a manifest names. It starts in the directory
of the manifest. -/
def entryPath (manifest : Manifest) (path : String) : String :=
  if Path.isAbsolute manifest.entry then
    manifest.entry
  else
    Path.within (Path.directory path) manifest.entry

end Manifest

end Scriptlet
