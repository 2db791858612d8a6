/-
The resume journal (`nxfr-storage/src/resume.rs`): one state for each
transfer id, saved whole. The files of a state are a map from file ids; the
order `iter` gives them in is the map's own and nothing may depend on it.
-/
import Nxfr.Paths

namespace Nxfr

/-- `hex::encode`. -/
def hexEncode (bs : Bytes) : String :=
  String.ofList (bs.flatMap fun b => [Nat.digitChar (b.toNat / 16), Nat.digitChar (b.toNat % 16)])

/-- The value of a hex digit of either case. -/
def hexValue (c : Char) : Option Nat :=
  if '0' ≤ c ∧ c ≤ '9' then some (c.toNat - '0'.toNat)
  else if 'a' ≤ c ∧ c ≤ 'f' then some (c.toNat - 'a'.toNat + 10)
  else if 'A' ≤ c ∧ c ≤ 'F' then some (c.toNat - 'A'.toNat + 10)
  else none

def hexPairs : List Char → Option Bytes
  | [] => some []
  | [_] => none
  | a :: b :: rest => do
    let hi ← hexValue a
    let lo ← hexValue b
    let bs ← hexPairs rest
    return UInt8.ofNat (16 * hi + lo) :: bs

/-- `hex::decode`. -/
def hexDecode (s : String) : Option Bytes := hexPairs s.toList

structure ResumeManifestEntry where
  fileId : Nat
  relativePath : String
  size : Nat
  sha256 : String
  deriving DecidableEq

structure ResumeFileState where
  receivedBytes : Nat
  receivedRanges : List (Nat × Nat)
  partialSha256 : Option String
  destPath : Path
  deriving DecidableEq

structure ResumeState where
  transferId : String
  peerDeviceId : String
  displayName : String
  manifest : List ResumeManifestEntry
  files : AList fun _ : Nat => ResumeFileState
  createdAt : Int
  expiresAt : Int
  version : Nat

/-- What `load` finds for each transfer id. -/
abbrev Journal := String → Option ResumeState

/-- `ResumeJournal::save`. -/
def Journal.save (j : Journal) (s : ResumeState) : Journal :=
  fun id => if id = s.transferId then some s else j id

/-- `ResumeJournal::delete`. -/
def Journal.delete (j : Journal) (id : String) : Journal := fun id' => if id' = id then none else j id'

@[simp] theorem Journal.save_self (j : Journal) (s : ResumeState) : j.save s s.transferId = some s := by
  simp [Journal.save]

/-- The bytes the journal claims for a file. -/
def ResumeState.received (s : ResumeState) (fileId : Nat) : Nat :=
  ((s.files.lookup fileId).map (·.receivedBytes)).getD 0

/-- `files.get_mut(&file_id)`, when it is there, with what `receive_file`
writes into it. -/
def ResumeState.record (s : ResumeState) (fileId received : Nat) : ResumeState :=
  match s.files.lookup fileId with
  | none => s
  | some f =>
    let f' := { f with receivedBytes := received, receivedRanges := [(0, received)] }
    { s with files := s.files.insert fileId f' }

end Nxfr
