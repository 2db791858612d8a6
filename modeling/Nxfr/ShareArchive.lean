/-
`GET /dl/all.zip` from the share manifest to the body of the answer
(`nxfr-web/src/lib.rs`): which files are streamed, under which names, and what
the records of the archive say of them.

A file that is not there is skipped; one that cannot be opened, or whose reading
fails, ends the connection with an error, and the body never ends. The numbers
of the records are narrowed to their fields as they are written.
-/
import Nxfr.ChunkedWriter
import Nxfr.UploadNames
import Nxfr.ZipFacts

namespace Nxfr.Web

open LittleEndian ChunkedWriter

/-! ## The handler -/

/-- What the disk has at the path of a manifest item: the reads of a file up to
its end, or up to an error. -/
inductive SharedFile where
  | missing
  | unopenable
  | opens (reads : List Bytes)
  | breaks (reads : List Bytes)

/-- An item of the manifest: its name, its file, and the four random bytes for
a name that is replaced. -/
structure ArchiveItem where
  name : String
  file : SharedFile
  randBytes : List UInt8

section

variable (cls : CharClass) (crc32 : Bytes → UInt32)

def ArchiveItem.filename (item : ArchiveItem) : Bytes :=
  (sanitizeFilename cls item.randBytes item.name).toUTF8.data.toList

/-- The loop over the manifest: the stream and whether it got to the end. -/
def streamShare : List ArchiveItem → ZipStream → ZipStream × Bool
  | [], z => (z, true)
  | item :: items, z => match item.file with
    | .missing => streamShare items z
    | .unopenable => ({ z with chunks := z.chunks ++ [buildZipLocalHeader (item.filename cls)] }, false)
    | .opens reads => streamShare items (streamItem crc32 z ⟨item.filename cls, reads⟩)
    | .breaks reads => ({ z with chunks := z.chunks ++ [buildZipLocalHeader (item.filename cls)] ++ reads }, false)

/-- The body of the answer. -/
def allZipBody (manifest : List ArchiveItem) : Bytes :=
  let (z, complete) := streamShare cls crc32 manifest ⟨[], 0, []⟩
  if complete then
    let centralDirOffset := z.offset
    let central := z.entries.map centralEntry
    let offset := central.foldl (fun offset cdEntry => offset + cdEntry.length) centralDirOffset
    let centralDirSize := offset - centralDirOffset
    let eocd := buildZipEocd z.entries.length centralDirSize centralDirOffset
    finish (writeChunks (z.chunks ++ central ++ [eocd]))
  else writeChunks z.chunks

/-! ## The archive -/

/-- The files of the manifest that are there. -/
def sharedItems (manifest : List ArchiveItem) : List ZipItem :=
  manifest.filterMap fun item => match item.file with
    | .opens reads => some ⟨item.filename cls, reads⟩
    | .missing | .unopenable | .breaks _ => none

/-- Every file that is there can be read to its end. -/
def readable (manifest : List ArchiveItem) : Bool := manifest.all fun item => match item.file with
  | .missing | .opens _ => true
  | .unopenable | .breaks _ => false

theorem streamShare_eq (manifest : List ArchiveItem) (z : ZipStream) :
    (streamShare cls crc32 manifest z).2 = readable manifest ∧ (readable manifest = true →
      (streamShare cls crc32 manifest z).1 = (sharedItems cls manifest).foldl (streamItem crc32) z) := by
  induction manifest generalizing z with
  | nil => exact ⟨rfl, fun _ => rfl⟩
  | cons item items ih =>
    rw [streamShare, readable, List.all_cons, ← readable, sharedItems, List.filterMap_cons]
    cases item.file with
    | missing => simpa [sharedItems] using ih z
    | unopenable => simp
    | opens reads => simpa [sharedItems] using ih (streamItem crc32 z ⟨item.filename cls, reads⟩)
    | breaks reads => simp

/-- The body is that of the archive of the files that are there, or has no end. -/
theorem decode_allZipBody (manifest : List ArchiveItem) :
    Chunked.decode (allZipBody cls crc32 manifest) =
      if readable manifest then some (zipArchive crc32 (sharedItems cls manifest), []) else none := by
  obtain ⟨hcomplete, hstream⟩ := streamShare_eq cls crc32 manifest ⟨[], 0, []⟩
  unfold allZipBody
  simp only [hcomplete]
  split
  · rename_i hreadable
    rw [hstream hreadable]
    have hall := decode_finish (streamArchive crc32 (sharedItems cls manifest)) []
    rw [List.append_nil] at hall
    exact hall
  · exact writeChunks_open _

/-! ## What the records say -/

/-- The two sizes in a data descriptor. -/
def descriptorSizes (bs : Bytes) : Option (Nat × Nat) := match numbers [4, 4, 4, 4] bs with
  | some ([_, _, compressedSize, size], _) => some (compressedSize, size)
  | _ => none

/-- The two sizes and the offset in an entry of the central directory. -/
def centralNumbers (bs : Bytes) : Option (Nat × Nat × Nat) :=
  match numbers [4, 2, 2, 2, 2, 2, 2, 4, 4, 4, 2, 2, 2, 2, 2, 4, 4] bs with
  | some ([_, _, _, _, _, _, _, _, compressedSize, size, _, _, _, _, _, _, localOffset], _) =>
    some (compressedSize, size, localOffset)
  | _ => none

/-- The two counts and the size and the offset of the directory in the end
record. -/
def endNumbers (bs : Bytes) : Option (Nat × Nat × Nat × Nat) := match numbers [4, 2, 2, 2, 2, 4, 4, 2] bs with
  | some ([_, _, _, count, total, directorySize, directoryOffset, _], _) =>
    some (count, total, directorySize, directoryOffset)
  | _ => none

/-- Where the data descriptor of a file is, with the files before it. -/
def descriptorAt (before : List ZipItem) (item : ZipItem) : Nat :=
  (localParts crc32 before).length + (buildZipLocalHeader item.filename).length + item.content.length

/-- Where the entry of a file is in the archive of some files. -/
def centralAt (items before : List ZipItem) : Nat := (localParts crc32 items).length + (directory crc32 before).length

/-- Every record says what is so: the sizes that of the content, the offsets
where the local header and the directory are, the counts how many files. -/
structure ExactFields (items : List ZipItem) (archive : Bytes) : Prop where
  descriptor : ∀ before item after, items = before ++ item :: after →
    descriptorSizes (archive.drop (descriptorAt crc32 before item)) = some (item.content.length, item.content.length)
  central : ∀ before item after, items = before ++ item :: after →
    centralNumbers (archive.drop (centralAt crc32 items before)) =
      some (item.content.length, item.content.length, (localParts crc32 before).length)
  endRecord : endNumbers (archive.drop (archive.length - 22)) =
    some (items.length, items.length, (directory crc32 items).length, (localParts crc32 items).length)

theorem descriptorSizes_eq (crc : UInt32) (size : Nat) (rest : Bytes) :
    descriptorSizes (buildZipDataDescriptor crc size ++ rest) = some (size % 2 ^ 32, size % 2 ^ 32) := by
  rw [buildZipDataDescriptor, descriptorSizes, numbers_fields_mod]
  · rfl
  · rfl

theorem centralNumbers_eq (entry : ZipEntry) (rest : Bytes) :
    centralNumbers (centralEntry entry ++ rest) =
      some (entry.fileSize % 2 ^ 32, entry.fileSize % 2 ^ 32, entry.localOffset % 2 ^ 32) := by
  rw [centralEntry, buildZipCentralEntry, List.append_assoc, centralNumbers, numbers_fields_mod]
  · rfl
  · rfl

theorem endNumbers_eq (count size offset : Nat) :
    endNumbers (buildZipEocd count size offset) =
      some (count % 2 ^ 16, count % 2 ^ 16, size % 2 ^ 32, offset % 2 ^ 32) := by
  rw [buildZipEocd, ← List.append_nil (fields _), endNumbers, numbers_fields_mod]
  · rfl
  · rfl

theorem zipEntries_append (before after : List ZipItem) (offset : Nat) :
    zipEntries crc32 offset (before ++ after) =
      zipEntries crc32 offset before ++ zipEntries crc32 (offset + (localParts crc32 before).length) after := by
  induction before generalizing offset with
  | nil => simp [zipEntries, localParts]
  | cons item before ih =>
    rw [List.cons_append, zipEntries, zipEntries, ih, localParts, localParts, List.flatMap_cons, List.length_append,
      List.cons_append, Nat.add_assoc]

/-- The archive from the data descriptor of a file on. -/
theorem drop_descriptor {items before after : List ZipItem} {item : ZipItem} (h : items = before ++ item :: after) :
    ∃ rest, (zipArchive crc32 items).drop (descriptorAt crc32 before item) =
      buildZipDataDescriptor (crc32 item.content) item.content.length ++ rest := by
  obtain ⟨front, hfront⟩ : ∃ front, front =
      localParts crc32 before ++ buildZipLocalHeader item.filename ++ item.content := ⟨_, rfl⟩
  obtain ⟨post, hpost⟩ : ∃ post, zipArchive crc32 items = localParts crc32 items ++ post := ⟨_, zipArchive_eq crc32 items⟩
  have hparts : localParts crc32 items =
      front ++ (buildZipDataDescriptor (crc32 item.content) item.content.length ++ localParts crc32 after) := by
    rw [h, hfront, localParts, List.flatMap_append, List.flatMap_cons, localPart, ← localParts, ← localParts]
    simp only [List.append_assoc]
  have hlen : descriptorAt crc32 before item = front.length := by
    rw [hfront, descriptorAt, List.length_append, List.length_append]
  refine ⟨localParts crc32 after ++ post, ?_⟩
  rw [hpost, hparts, hlen, List.append_assoc, List.drop_left, List.append_assoc]

/-- The archive from the entry of a file on. -/
theorem drop_central {items before after : List ZipItem} {item : ZipItem} (h : items = before ++ item :: after) :
    ∃ rest, (zipArchive crc32 items).drop (centralAt crc32 items before) =
      centralEntry (zipEntry crc32 (localParts crc32 before).length item) ++ rest := by
  obtain ⟨later, hlater⟩ : ∃ later, later =
      ((zipEntries crc32 ((localParts crc32 before).length + (localPart crc32 item).length) after).map
        centralEntry).flatten := ⟨_, rfl⟩
  have hdir : directory crc32 items = directory crc32 before ++
      (centralEntry (zipEntry crc32 (localParts crc32 before).length item) ++ later) := by
    rw [directory, h, zipEntries_append, Nat.zero_add, zipEntries, List.map_append, List.map_cons, List.flatten_append,
      List.flatten_cons, directory, hlater]
  refine ⟨later ++ buildZipEocd items.length (directory crc32 items).length (localParts crc32 items).length, ?_⟩
  rw [zipArchive_eq, centralAt, ← List.length_append, hdir, List.append_assoc, ← List.append_assoc, List.drop_left,
    List.append_assoc]

theorem drop_eocd (items : List ZipItem) :
    (zipArchive crc32 items).drop ((zipArchive crc32 items).length - 22) =
      buildZipEocd items.length (directory crc32 items).length (localParts crc32 items).length := by
  rw [zipArchive_eq, ← List.append_assoc, List.length_append, eocd_length, Nat.add_sub_cancel, List.drop_left]

/-! ## How long the archive is -/

/-- What a file takes before the directory: its headers, name and content. -/
def ZipItem.room (item : ZipItem) : Nat := 46 + item.filename.length + item.content.length

theorem localParts_length (items : List ZipItem) : (localParts crc32 items).length = (items.map ZipItem.room).sum := by
  induction items with
  | nil => rfl
  | cons item items ih =>
    have hpart : (localPart crc32 item).length = item.room := by
      simp only [localPart, buildZipLocalHeader, buildZipDataDescriptor, List.length_append, fields_length, ZipItem.room,
        List.map_cons, List.map_nil, List.sum_cons, List.sum_nil]
      omega
    rw [localParts, List.flatMap_cons, List.length_append, ← localParts, ih, hpart, List.map_cons, List.sum_cons]

theorem directory_length (items : List ZipItem) : (directory crc32 items).length ≤ (items.map ZipItem.room).sum := by
  have hfrom : ∀ offset, ((zipEntries crc32 offset items).map centralEntry).flatten.length ≤
      (items.map ZipItem.room).sum := by
    induction items with
    | nil => simp [zipEntries]
    | cons item items ih =>
      intro offset
      have hrest := ih (offset + (localPart crc32 item).length)
      have hentry : (centralEntry (zipEntry crc32 offset item)).length ≤ item.room := by
        simp only [centralEntry, zipEntry, buildZipCentralEntry, List.length_append, fields_length, ZipItem.room,
          List.map_cons, List.map_nil, List.sum_cons, List.sum_nil]
        omega
      rw [zipEntries, List.map_cons, List.flatten_cons, List.length_append, List.map_cons, List.sum_cons]
      omega
  exact hfrom 0

/-- The records of an archive are exact just where it is short enough. -/
theorem exactFields_iff (items : List ZipItem) :
    ExactFields crc32 items (zipArchive crc32 items) ↔
      items.length < 2 ^ 16 ∧ (items.map ZipItem.room).sum < 2 ^ 32 := by
  have hfiles := localParts_length crc32 items
  have hdir := directory_length crc32 items
  constructor
  · intro h
    have hend := h.endRecord
    rw [drop_eocd, endNumbers_eq] at hend
    simp only [Option.some.injEq, Prod.mk.injEq] at hend
    omega
  · intro ⟨hcount, hroom⟩
    have hbefore : ∀ before item after, items = before ++ item :: after →
        item.content.length < 2 ^ 32 ∧ (localParts crc32 before).length < 2 ^ 32 := by
      intro before item after h
      have hlen := localParts_length crc32 before
      rw [h, List.map_append, List.sum_append, List.map_cons, List.sum_cons, ZipItem.room] at hroom
      omega
    refine ⟨?_, ?_, ?_⟩
    · intro before item after h
      obtain ⟨rest, hrest⟩ := drop_descriptor crc32 h
      rw [hrest, descriptorSizes_eq, Nat.mod_eq_of_lt (hbefore before item after h).1]
    · intro before item after h
      obtain ⟨rest, hrest⟩ := drop_central crc32 h
      obtain ⟨hsize, hoffset⟩ := hbefore before item after h
      rw [hrest, centralNumbers_eq, zipEntry, Nat.mod_eq_of_lt hsize, Nat.mod_eq_of_lt hoffset]
    · rw [drop_eocd, endNumbers_eq, Nat.mod_eq_of_lt hcount,
        Nat.mod_eq_of_lt (show (directory crc32 items).length < 2 ^ 32 by omega),
        Nat.mod_eq_of_lt (show (localParts crc32 items).length < 2 ^ 32 by omega)]

/-- **The fields of the archive.** For every manifest: an archive that is
presented as complete has every size, offset and count as it is, just where the
files that are there can be read and come to fewer than 2¹⁶, or they cannot be,
and with 46 bytes and the name of each to fewer than 2³² bytes. -/
theorem allZip_fields_exact (manifest : List ArchiveItem) :
    (∀ archive rest, Chunked.decode (allZipBody cls crc32 manifest) = some (archive, rest) →
      ExactFields crc32 (sharedItems cls manifest) archive) ↔
    (readable manifest = true → (sharedItems cls manifest).length < 2 ^ 16 ∧
      ((sharedItems cls manifest).map ZipItem.room).sum < 2 ^ 32) := by
  rw [decode_allZipBody]
  constructor
  · intro h hreadable
    exact (exactFields_iff crc32 _).mp (h _ [] (if_pos hreadable))
  · intro h archive rest hdecode
    split at hdecode
    · rename_i hreadable
      cases hdecode
      exact (exactFields_iff crc32 _).mpr (h hreadable)
    · cases hdecode

/-- Some reads of one size. -/
def evenReads (count size : Nat) : List Bytes := List.replicate count (List.replicate size 0)

theorem evenReads_length (count size : Nat) : (evenReads count size).flatten.length = count * size := by
  rw [evenReads, List.length_flatten, List.map_replicate, List.length_replicate, List.sum_replicate, smul_eq_mul]

/-- One file of four gigabytes, in reads of 64 KiB. -/
def largeShare : List ArchiveItem := [⟨"big.bin", .opens (evenReads 65536 65536), []⟩]

/-- Its archive is presented as complete, and its sizes are not. -/
theorem allZip_fields_wrapped :
    ∃ archive, Chunked.decode (allZipBody asciiClass (fun _ => 0) largeShare) = some (archive, []) ∧
      ¬ ExactFields (fun _ => 0) (sharedItems asciiClass largeShare) archive := by
  have hreadable : readable largeShare = true := rfl
  refine ⟨_, by rw [decode_allZipBody, if_pos hreadable], ?_⟩
  rw [exactFields_iff]
  intro ⟨_, hroom⟩
  have hitems : ∃ name, sharedItems asciiClass largeShare = [⟨name, evenReads 65536 65536⟩] := ⟨_, rfl⟩
  obtain ⟨name, hitems⟩ := hitems
  rw [hitems, List.map_singleton, List.sum_singleton, ZipItem.room, ZipItem.content, evenReads_length] at hroom
  omega

end

end Nxfr.Web
