/-
  The directory of schema documents.

  Every file of the directory whose name has the extension `json` holds one document.  They are
  read in the order of their names, and the first one that cannot be read decides the failure.
-/
import GraphKeeper.Schema.Document

namespace GraphKeeper.Schema

/-- The document of a file. -/
def readDocument (d : Disk) (path : String) : Except SchemaFailure Document :=
  match d.readText path with
  | .error fault => .error (.unreadable path fault)
  | .ok s => (Json.decodeText Document.decoder s).mapError (.undecodable path)

/-- The documents of a directory. -/
def readDirectory (d : Disk) (path : String) : Except SchemaFailure (List Document) :=
  if !d.isDirectory path then .error (.noDirectory path)
  else
    match d.fileNames path with
    | .error fault => .error (.unreadable path fault)
    | .ok names =>
      (names.filter fun name => Path.extension? name == some "json").mapM fun name =>
        readDocument d (Path.join path name)

end GraphKeeper.Schema
