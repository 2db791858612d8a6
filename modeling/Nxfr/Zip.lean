/-
`GET /dl/all.zip` of the web server (`nxfr-web/src/lib.rs`): the builders of the
records of a ZIP archive and the loop that streams one.

The archive is what the calls of `write_chunk` write, one after another. A file
comes in reads of any sizes. `crc32fast` is a parameter, the checksum of all
that was hashed.
-/
import Nxfr.LittleEndian
import Nxfr.Messages

namespace Nxfr.Web

open LittleEndian

/-! ## The records -/

/-- The sizes and the checksum are left to the data descriptor. -/
def buildZipLocalHeader (filename : Bytes) : Bytes :=
  fields [(4, 0x04034b50), (2, 20), (2, 0x0008), (2, 0), (2, 0), (2, 0x0021), (4, 0), (4, 0), (4, 0),
    (2, filename.length), (2, 0)] ++ filename

def buildZipDataDescriptor (crc32 : UInt32) (size : Nat) : Bytes :=
  fields [(4, 0x08074b50), (4, crc32.toNat), (4, size), (4, size)]

def buildZipCentralEntry (filename : Bytes) (fileSize : Nat) (crc32 : UInt32) (localOffset : Nat) : Bytes :=
  fields [(4, 0x02014b50), (2, 0x0314), (2, 20), (2, 0x0008), (2, 0), (2, 0), (2, 0x0021), (4, crc32.toNat),
    (4, fileSize), (4, fileSize), (2, filename.length), (2, 0), (2, 0), (2, 0), (2, 0), (4, 0),
    (4, localOffset)] ++ filename

def buildZipEocd (entryCount centralDirSize centralDirOffset : Nat) : Bytes :=
  fields [(4, 0x06054b50), (2, 0), (2, 0), (2, entryCount), (2, entryCount), (4, centralDirSize),
    (4, centralDirOffset), (2, 0)]

/-! ## The stream -/

/-- A file of the archive: its name, and what its reads give. -/
structure ZipItem where
  filename : Bytes
  reads : List Bytes

def ZipItem.content (item : ZipItem) : Bytes := item.reads.flatten

structure ZipEntry where
  filename : Bytes
  fileSize : Nat
  crc32 : UInt32
  localOffset : Nat

/-- The loop over the files: what was written, the running offset and what the
central directory will list. -/
structure ZipStream where
  chunks : List Bytes
  offset : Nat
  entries : List ZipEntry

/-- What the inner loop has of a file: what it wrote, what it hashed and how
much that was. -/
structure FileStream where
  chunks : List Bytes
  hashed : Bytes
  written : Nat

def FileStream.read (f : FileStream) (buf : Bytes) : FileStream :=
  ⟨f.chunks ++ [buf], f.hashed ++ buf, f.written + buf.length⟩

section

variable (crc32 : Bytes → UInt32)

def streamItem (z : ZipStream) (item : ZipItem) : ZipStream :=
  let localOffset := z.offset
  let localHeader := buildZipLocalHeader item.filename
  let f := item.reads.foldl FileStream.read ⟨[], [], 0⟩
  let crc := crc32 f.hashed
  let descriptor := buildZipDataDescriptor crc f.written
  { chunks := z.chunks ++ [localHeader] ++ f.chunks ++ [descriptor]
    offset := z.offset + localHeader.length + f.written + descriptor.length
    entries := z.entries ++ [⟨item.filename, f.written, crc, localOffset⟩] }

def centralEntry (entry : ZipEntry) : Bytes :=
  buildZipCentralEntry entry.filename entry.fileSize entry.crc32 entry.localOffset

/-- All that `write_chunk` is called with. -/
def streamArchive (items : List ZipItem) : List Bytes :=
  let z := items.foldl (streamItem crc32) ⟨[], 0, []⟩
  let centralDirOffset := z.offset
  let central := z.entries.map centralEntry
  let offset := central.foldl (fun offset cdEntry => offset + cdEntry.length) centralDirOffset
  let centralDirSize := offset - centralDirOffset
  let eocd := buildZipEocd z.entries.length centralDirSize centralDirOffset
  z.chunks ++ central ++ [eocd]

def zipArchive (items : List ZipItem) : Bytes := (streamArchive crc32 items).flatten

end

/-! ## A reader -/

/-- What a reader finds of a file in the archive. -/
structure ZipFile where
  filename : Bytes
  content : Bytes
  size : Nat
  crc32 : Nat
  deriving DecidableEq

/-- An entry of the central directory, as it is read. -/
structure CentralRecord where
  filename : Bytes
  compressedSize : Nat
  size : Nat
  crc32 : Nat
  localOffset : Nat

/-- An entry of the central directory off the front. -/
def readCentralEntry (bs : Bytes) : Option (CentralRecord × Bytes) :=
  match numbers [4, 2, 2, 2, 2, 2, 2, 4, 4, 4, 2, 2, 2, 2, 2, 4, 4] bs with
  | some ([signature, _, _, _, method, _, _, crc32, compressedSize, size, nameLength, extraLength, commentLength, _, _,
      _, localOffset], bs) => do
    guard (signature = 0x02014b50 ∧ method = 0)
    let (filename, bs) ← block nameLength bs
    let (_, bs) ← block (extraLength + commentLength) bs
    pure (⟨filename, compressedSize, size, crc32, localOffset⟩, bs)
  | _ => none

/-- As many entries as the end record says. -/
def readDirectory : Nat → Bytes → Option (List CentralRecord × Bytes)
  | 0, bs => some ([], bs)
  | count + 1, bs => do
    let (entry, bs) ← readCentralEntry bs
    let (entries, bs) ← readDirectory count bs
    pure (entry :: entries, bs)

/-- The name in a local header, and what follows the header. -/
def readLocalHeader (bs : Bytes) : Option (Bytes × Bytes) := match numbers [4, 2, 2, 2, 2, 2, 4, 4, 4, 2, 2] bs with
  | some ([signature, _, _, method, _, _, _, _, _, nameLength, extraLength], bs) => do
    guard (signature = 0x04034b50 ∧ method = 0)
    let (filename, bs) ← block nameLength bs
    let (_, bs) ← block extraLength bs
    pure (filename, bs)
  | _ => none

/-- The checksum and the two sizes in a data descriptor. -/
def readDataDescriptor (bs : Bytes) : Option (Nat × Nat × Nat) := match numbers [4, 4, 4, 4] bs with
  | some ([signature, crc32, compressedSize, size], _) =>
    if signature = 0x08074b50 then some (crc32, compressedSize, size) else none
  | _ => none

/-- The file an entry leads to: the local header has the same name, and the data
descriptor has the checksum and the sizes of the entry. -/
def readFile (archive : Bytes) (entry : CentralRecord) : Option ZipFile := do
  let (filename, bs) ← readLocalHeader (archive.drop entry.localOffset)
  let (content, bs) ← block entry.size bs
  let (crc32, compressedSize, size) ← readDataDescriptor bs
  guard (filename = entry.filename ∧ crc32 = entry.crc32 ∧ compressedSize = entry.compressedSize ∧ size = entry.size)
  pure ⟨filename, content, size, crc32⟩

/-- The archive as a reader takes it: the end record from the last 22 bytes, the
central directory it points at, which ends where the end record begins, and the
files its entries lead to. -/
def readArchive (archive : Bytes) : Option (List ZipFile) :=
  match numbers [4, 2, 2, 2, 2, 4, 4, 2] (archive.drop (archive.length - 22)) with
  | some ([signature, _, _, count, total, directorySize, directoryOffset, commentLength], _) => do
    guard (signature = 0x06054b50 ∧ count = total ∧ commentLength = 0 ∧
      directoryOffset + directorySize + 22 = archive.length)
    let (entries, rest) ← readDirectory count (archive.drop directoryOffset)
    guard (rest.length = 22)
    entries.mapM (readFile archive)
  | _ => none

end Nxfr.Web
