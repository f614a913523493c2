import PolicyCheck.Schema.OfYaml
import PolicyCheck.Host.Basic

/-!
# Schema files

The schema of a database is described in a file of its own, in JSON or YAML by its extension. The
database itself is only asked to be a file, and before the schema is looked at.
-/

namespace PolicyCheck.Schema

def checkDatabase (h : Host) (database : FilePath) : Except Error Unit :=
  if h.isFile database then .ok () else .error (.schema (.databaseMissing database.text))

def ofFile (h : Host) (p : FilePath) : Except Error Schema := do
  let text ← (h.readText p).mapError fun cause => .schema (.unreadable p.text cause)
  let parsed (format : Format) (schema? : Option Schema) : Except Error Schema :=
    match schema? with
    | some schema => .ok schema
    | none => .error (.parse format)
  match p.extension?.getD "" with
  | "json" => parsed .json (ofJsonText? text)
  | "yaml" | "yml" => parsed .yaml (ofYamlText? text)
  | extension => .error (.schema (.unsupportedExtension extension p.text))

def ofDatabase (h : Host) (p database : FilePath) : Except Error Schema := do
  checkDatabase h database
  ofFile h p

end PolicyCheck.Schema
