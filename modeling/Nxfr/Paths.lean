/-
Names and paths: `sanitize_path` and `resolve_safe_path`
(`nxfr-core/src/path.rs`), the `.part` name beside a destination
(`handler.rs`), and `resolve_collision` (`receiver.rs`, and the same function
in `nxfr-ffi/src/lib.rs`).

The file system has no links here, so `canonicalize` answers a path that
exists with itself.
-/
import Nxfr.Disk
import Nxfr.Messages

namespace Nxfr

abbrev Path := Disk.Path String
abbrev Fs := Disk.Fs String UInt8

/-- The bytes of a path, each name with its separator. -/
def pathSize : Path → Nat
  | [] => 0
  | name :: p => name.utf8ByteSize + 1 + pathSize p

/-- `NAME_MAX` and `PATH_MAX` of Linux and Android. -/
instance : Disk.Limits String where
  fits p := p.all (fun name => name.utf8ByteSize ≤ 255) && pathSize p < 4096

inductive PathError where
  | emptyPath
  | absolutePath (path : String)
  | parentTraversal (path : String)
  | nullByte
  | controlCharacter (code : Nat)
  | windowsReservedName (path : String)
  | componentTooLong (len : Nat)
  | pathTooLong (len : Nat)
  | backslash
  deriving DecidableEq

/-- `{:02x}` of a byte. -/
def hexByte (b : UInt8) : String :=
  String.ofList [Nat.digitChar (b.toNat / 16), Nat.digitChar (b.toNat % 16)]

/-- The `Display` text of a path error. -/
def PathError.display (x : Ext) : PathError → String
  | .emptyPath => "empty path"
  | .absolutePath p => "absolute path: " ++ x.debugStr p
  | .parentTraversal p => "parent traversal (..) in path: " ++ x.debugStr p
  | .nullByte => "null byte in path"
  | .controlCharacter c => "control character (0x" ++ hexByte (UInt8.ofNat c) ++ ") in path"
  | .windowsReservedName p => "Windows reserved name: " ++ x.debugStr p
  | .componentTooLong len => "path component too long: " ++ toString len ++ " bytes (max 255)"
  | .pathTooLong len => "total path too long: " ++ toString len ++ " bytes (max 4096)"
  | .backslash => "path contains backslash"

/-- `limits::MAX_PATH_COMPONENT`. -/
def maxPathComponent : Nat := 255

/-- `limits::MAX_RELATIVE_PATH`. -/
def maxRelativePath : Nat := 4096

/-- `split('/')`. -/
def splitSlash (s : String) : List String := (s.toList.splitOn '/').map String.ofList

/-- `join("/")`. -/
def joinSlash (cs : List String) : String := String.ofList (['/'].intercalate (cs.map String.toList))

def reservedNames : List String :=
  ["CON", "PRN", "AUX", "NUL", "COM1", "COM2", "COM3", "COM4", "COM5", "COM6", "COM7", "COM8", "COM9",
    "LPT1", "LPT2", "LPT3", "LPT4", "LPT5", "LPT6", "LPT7", "LPT8", "LPT9"]

/-- The part of a component before its first dot is a device name. -/
def isReserved (component : String) : Bool :=
  reservedNames.contains (String.ofList ((component.toList.takeWhile (· != '.')).map Char.toUpper))

/-- A letter and a colon at the start. -/
def hasDriveLetter : List Char → Bool
  | c :: ':' :: _ => c.isAlpha
  | _ => false

/-- The loop of `sanitize_path` over the components. -/
def keepComponents (input : String) : List String → Except PathError (List String)
  | [] => .ok []
  | c :: cs =>
    if c = "" ∨ c = "." then keepComponents input cs
    else if c = ".." then .error (.parentTraversal input)
    else if c.utf8ByteSize > maxPathComponent then .error (.componentTooLong c.utf8ByteSize)
    else if isReserved c then .error (.windowsReservedName input)
    else (keepComponents input cs).map (c :: ·)

/-- `sanitize_path`. -/
def sanitizePath (input : String) : Except PathError String :=
  let chars := input.toList
  if chars = [] then .error .emptyPath
  else if chars.contains '\\' then .error .backslash
  else if chars.head? = some '/' then .error (.absolutePath input)
  else if hasDriveLetter chars then .error (.absolutePath input)
  else if chars.contains (Char.ofNat 0) then .error .nullByte
  else match chars.find? fun c => c.toNat ≤ 0x1F || c.toNat == 0x7F with
    | some c => .error (.controlCharacter c.toNat)
    | none =>
      match keepComponents input (splitSlash input) with
      | .error e => .error e
      | .ok kept =>
        if kept = [] then .error .emptyPath
        else if (joinSlash kept).utf8ByteSize > maxRelativePath then
          .error (.pathTooLong (joinSlash kept).utf8ByteSize)
        else .ok (joinSlash kept)

/-- `Path::join` with a relative path. -/
def joinPath (root : Path) (relative : String) : Path := root ++ splitSlash relative

/-- `fs::canonicalize`, where there are no links. -/
def canonicalize (fs : Fs) (p : Path) : Except String Path :=
  if fs.exists? p then .ok p else .error "No such file or directory (os error 2)"

/-- `resolve_safe_path`. -/
def resolveSafePath (fs : Fs) (root : Path) (relative : String) : Except PathError Path :=
  match sanitizePath relative with
  | .error e => .error e
  | .ok sanitized =>
    match canonicalize fs root with
    | .error e => .error (.absolutePath ("cannot canonicalize root: " ++ e))
    | .ok canonRoot =>
      let joined := joinPath canonRoot sanitized
      let checkPath : Except PathError Path :=
        if fs.exists? joined then
          (canonicalize fs joined).mapError fun e => .absolutePath ("cannot canonicalize dest: " ++ e)
        else match joined.getLast? with
          | none => .error .emptyPath
          | some filename =>
            if fs.exists? joined.dropLast then
              match canonicalize fs joined.dropLast with
              | .error e => .error (.absolutePath ("cannot canonicalize parent: " ++ e))
              | .ok parent => .ok (parent ++ [filename])
            else .ok joined
      match checkPath with
      | .error e => .error e
      | .ok checkPath =>
        if canonRoot.isPrefixOf checkPath then .ok joined
        else .error (.parentTraversal ("path escapes download root: /" ++ joinSlash checkPath))

/-- `rsplit_file_at_dot` of the standard library: what comes before and
after the last dot of a name that does not just start with one. -/
def splitAtDot (name : String) : Option (String × String) :=
  let back := name.toList.reverse
  let stem := (back.dropWhile (· != '.')).tail.reverse
  if name = ".." ∨ stem = [] then none
  else some (String.ofList stem, String.ofList (back.takeWhile (· != '.')).reverse)

/-- `Path::file_stem` of a name. -/
def fileStem (name : String) : String := ((splitAtDot name).map (·.1)).getD name

/-- `Path::extension` of a name. -/
def extension (name : String) : Option String := (splitAtDot name).map (·.2)

/-- A name is its stem and its extension. -/
theorem stem_extension (name : String) : fileStem name ++ ((extension name).map ("." ++ ·)).getD "" = name := by
  rw [fileStem, extension]
  cases hsplit : splitAtDot name with
  | none => simp
  | some parts =>
    obtain ⟨stem, ext⟩ := parts
    simp only [splitAtDot] at hsplit
    split at hsplit
    · cases hsplit
    · rename_i hstem
      simp only [not_or] at hstem
      simp only [Option.some.injEq, Prod.mk.injEq] at hsplit
      obtain ⟨rfl, rfl⟩ := hsplit
      have hparts := List.takeWhile_append_dropWhile (p := (· != '.')) (l := name.toList.reverse)
      cases hdrop : name.toList.reverse.dropWhile (· != '.') with
      | nil => exact absurd (by simp [hdrop]) hstem.2
      | cons d rest =>
        have hd : d = '.' := by
          have hhead := List.head_dropWhile_not (p := (· != '.')) (l := name.toList.reverse) (by simp [hdrop])
          simpa [hdrop] using hhead
        subst hd
        rw [hdrop] at hparts
        have hname := congrArg List.reverse hparts
        rw [List.reverse_reverse] at hname
        refine String.toList_inj.mp (Eq.trans ?_ hname)
        simp [String.toList_append]

/-- The name `with_extension` gives for the `.part` file of a destination. -/
def partName (name : String) : String :=
  fileStem name ++ "." ++ (((extension name).map (· ++ ".part")).getD "part")

/-- A path with another last component. -/
def renameLast (f : String → String) (p : Path) : Path := match p.getLast? with
  | none => []
  | some name => p.dropLast ++ [f name]

/-- The `.part` path beside a destination. -/
def partPath (dest : Path) : Path := renameLast partName dest

/-- The `i`th name tried beside a name that is taken. -/
def collisionName (i : Nat) (name : String) : String :=
  fileStem name ++ " (" ++ toString i ++ ")" ++ ((extension name).map ("." ++ ·)).getD ""

/-- `resolve_collision`, at clock `now`. -/
def resolveCollision (now : Nat) (fs : Fs) (path : Path) : Path :=
  if !fs.exists? path then path
  else
    match ((List.range 999).map fun i => renameLast (collisionName (i + 1)) path).find? fun c => !fs.exists? c with
    | some candidate => candidate
    | none => renameLast (fun name => fileStem name ++ "_" ++ toString now ++
        ((extension name).map ("." ++ ·)).getD "") path

end Nxfr
