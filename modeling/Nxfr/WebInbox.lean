/-
`POST /upload` of the web server (`nxfr-web/src/lib.rs`), from the temporary
file to the answer: the name a client sends, the directory and the name that
are made of it, and the uploads of several connections in one inbox.

Each upload takes its steps when its connection lets it; a step is one call on
the disk, or what lies between two. The body comes as the pieces that the loop
over it writes (`bodyLoop`). The files are those of `Inodes`. The random bytes
are those the system gives, and which characters are alphanumeric is a
parameter that agrees with ASCII.
-/
import Nxfr.Paths
import Nxfr.Inodes
import Nxfr.History

namespace Nxfr.Web

open Inodes

/-! ## Names -/

/-- `char::is_alphanumeric`, of which only the ASCII characters are known. -/
structure CharClass where
  isAlphanumeric : Char → Bool
  ascii : ∀ c, c.toNat < 128 → isAlphanumeric c = c.isAlphanum

/-- `hex::encode` -/
def hexEncode (bs : List UInt8) : String := String.join (bs.map hexByte)

/-- `randBytes` are the four random bytes drawn for a name that is replaced. -/
def sanitizeFilename (cls : CharClass) (randBytes : List UInt8) (name : String) : String :=
  let sanitized := name.toList.map fun c =>
    if cls.isAlphanumeric c || c == '.' || c == '-' || c == '_' then c else '_'
  -- `trim_matches('.')`
  let trimmed := ((sanitized.dropWhile (· == '.')).reverse.dropWhile (· == '.')).reverse
  if sanitized = [] ∨ sanitized = ['.'] ∨ sanitized = ['.', '.'] ∨ trimmed = [] then
    "uploaded_file_" ++ hexEncode randBytes ++ ".bin"
  else String.ofList sanitized

/-- The components of a name that are not empty, `.` or `..`. -/
def nameComponents (rawName : String) : List String :=
  (splitSlash rawName).filter fun c => c ≠ "" ∧ c ≠ "." ∧ c ≠ ".."

/-- The subdirectory, if any, and the clean name of an upload; `none` where the
path is too deep. `rand` are the random bytes of each component. -/
def uploadTarget (cls : CharClass) (rand : Nat → List UInt8) (rawName : String) : Option (Option String × String) :=
  if rawName.toList.contains '/' then
    let components := nameComponents rawName
    if components.length > 11 then none
    else match components with
      | [] => some (none, sanitizeFilename cls (rand 0) rawName)
      | [c] => some (none, sanitizeFilename cls (rand 0) c)
      | c :: c' :: cs =>
        let dirParts := ((c :: c' :: cs).dropLast).mapIdx fun i c => sanitizeFilename cls (rand i) c
        let filePart := sanitizeFilename cls (rand (cs.length + 1)) ((c' :: cs).getLast (List.cons_ne_nil c' cs))
        some (some (joinSlash dirParts), filePart)
  else some (none, sanitizeFilename cls (rand 0) rawName)

/-! ## One upload -/

/-- The request of a connection: whether it has a boundary, the name its part
headers give, the pieces of its body, and the random bytes. -/
structure Upload where
  hasBoundary : Bool
  originalFilename : Option String
  chunks : List Bytes
  randBytes : List UInt8
  nameRand : Nat → List UInt8

def Upload.rawName (u : Upload) : String :=
  u.originalFilename.getD ("upload_" ++ hexEncode (u.randBytes.take 4) ++ ".bin")

/-- The bytes of its file. -/
def Upload.content (u : Upload) : Bytes := u.chunks.flatten

def tmpFilename (u : Upload) : String := "web_upload_" ++ hexEncode u.randBytes ++ ".tmp"

/-- What the upload is answered with, or that its connection got an error: 200
with the file that was stored, or without any; 413; 400 for a path too deep. -/
inductive Answer where
  | stored (dest : Path) (content : Bytes)
  | nothing
  | tooLarge
  | tooDeep
  | failed
  deriving DecidableEq

/-- Where an upload is: before the temporary file; in the loop over its body,
with what it has written and the pieces to come; looking for a free name, at
the `n`th; before the rename; answered. -/
inductive Stage where
  | start
  | streaming (file : Handle) (written : Bytes) (rest : List Bytes)
  | naming (written : Bytes) (targetDir : Path) (cleanName : String) (n : Nat)
  | moving (written : Bytes) (finalPath : Path)
  | answered (a : Answer)

/-- What an upload does next. A failure may come at any point: of a call, of
the connection, or the 413. -/
inductive Action where
  | create
  | write
  | finish
  | check
  | rename
  | giveUp (a : Answer)

abbrev Tree := Inodes.Tree String UInt8

/-- The paths tried for a name: the name itself, then with a number. -/
def candidate (targetDir : Path) (cleanName : String) : Nat → Path
  | 0 => targetDir ++ [cleanName]
  | n + 1 => targetDir ++ [collisionName (n + 1) cleanName]

section

variable (cls : CharClass) (inboxDir : Path)

def Upload.tmpPath (u : Upload) : Path := inboxDir ++ [tmpFilename u]

/-- `TmpFileGuard` removes the temporary file. -/
def dropGuard (u : Upload) (t : Tree) : Tree := (t.remove (u.tmpPath inboxDir)).getD t

/-- A step of an upload; one that it is not at leaves everything as it is. -/
def act (u : Upload) (stage : Stage) (t : Tree) : Action → Stage × Tree
  | .create => match stage with
    | .start =>
      if u.hasBoundary then match t.createDirAll inboxDir with
        | none => (.answered .failed, t)
        | some t => match t.create (u.tmpPath inboxDir) with
          | some (file, t) => (.streaming file [] u.chunks, t)
          | none => (.answered .failed, t)
      else (.answered .nothing, t)
    | stage => (stage, t)
  | .write => match stage with
    | .streaming file written (chunk :: rest) =>
      let (file, t) := t.write file chunk
      (.streaming file (written ++ chunk) rest, t)
    | stage => (stage, t)
  | .finish => match stage with
    | .streaming _ written [] => match uploadTarget cls u.nameRand u.rawName with
      | none => (.answered .tooDeep, dropGuard inboxDir u t)
      | some (none, cleanName) => (.naming written inboxDir cleanName 0, t)
      | some (some subDir, cleanName) => match t.createDirAll (joinPath inboxDir subDir) with
        | some t => (.naming written (joinPath inboxDir subDir) cleanName 0, t)
        | none => (.answered .failed, dropGuard inboxDir u t)
    | stage => (stage, t)
  | .check => match stage with
    | .naming written targetDir cleanName n =>
      if t.view.exists? (candidate targetDir cleanName n) then (.naming written targetDir cleanName (n + 1), t)
      else (.moving written (candidate targetDir cleanName n), t)
    | stage => (stage, t)
  | .rename => match stage with
    | .moving written finalPath => match t.rename (u.tmpPath inboxDir) finalPath with
      | some t => (.answered (.stored finalPath written), t)
      | none => (.answered .failed, dropGuard inboxDir u t)
    | stage => (stage, t)
  | .giveUp a => match stage with
    | .streaming .. => (.answered (if a = .tooLarge then .tooLarge else .failed), dropGuard inboxDir u t)
    | .naming .. | .moving .. => (.answered .failed, dropGuard inboxDir u t)
    | stage => (stage, t)

/-! ## Uploads of several connections -/

structure Inbox where
  tree : Tree
  stages : Nat → Stage

/-- The upload that goes on, and how. -/
structure UploadStep where
  upload : Nat
  action : Action

def Inbox.set (s : Inbox) (i : Nat) (stage : Stage) (tree : Tree) : Inbox :=
  { tree, stages := fun j => if j = i then stage else s.stages j }

variable (uploads : Nat → Upload)

def Inbox.step (s : Inbox) (e : UploadStep) : Inbox :=
  s.set e.upload (act cls inboxDir (uploads e.upload) (s.stages e.upload) s.tree e.action).1
    (act cls inboxDir (uploads e.upload) (s.stages e.upload) s.tree e.action).2

def Inbox.start (tree : Tree) : Inbox := { tree, stages := fun _ => .start }

end

end Nxfr.Web
