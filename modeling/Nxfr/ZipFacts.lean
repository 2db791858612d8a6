/-
What a reader finds in the archive that is streamed. The running offset is the
length of what was written (`streamItems`), so the entries lead to their local
headers and the end record to the directory.
-/
import Nxfr.Zip

namespace Nxfr.Web

open LittleEndian

section

variable (crc32 : Bytes → UInt32)

/-! ## The stream, record by record -/

/-- What is written for a file. -/
def localPart (item : ZipItem) : Bytes :=
  buildZipLocalHeader item.filename ++
    (item.content ++ buildZipDataDescriptor (crc32 item.content) item.content.length)

/-- The entry of a file whose local header is at an offset. -/
def zipEntry (offset : Nat) (item : ZipItem) : ZipEntry :=
  ⟨item.filename, item.content.length, crc32 item.content, offset⟩

/-- The entries of files that are written one after another. -/
def zipEntries : Nat → List ZipItem → List ZipEntry
  | _, [] => []
  | offset, item :: items =>
    zipEntry crc32 offset item :: zipEntries (offset + (localPart crc32 item).length) items

/-- What is written for the files. -/
def localParts (items : List ZipItem) : Bytes := items.flatMap (localPart crc32)

theorem fileStream_reads (reads : List Bytes) (f : FileStream) :
    (reads.foldl FileStream.read f).chunks = f.chunks ++ reads ∧
      (reads.foldl FileStream.read f).hashed = f.hashed ++ reads.flatten ∧
      (reads.foldl FileStream.read f).written = f.written + reads.flatten.length := by
  induction reads generalizing f with
  | nil => simp
  | cons buf reads ih =>
    obtain ⟨hchunks, hhashed, hwritten⟩ := ih (f.read buf)
    rw [List.foldl_cons]
    refine ⟨?_, ?_, ?_⟩
    · rw [hchunks, FileStream.read, List.append_assoc, List.singleton_append]
    · rw [hhashed, FileStream.read, List.flatten_cons, List.append_assoc]
    · have hread : (f.read buf).written = f.written + buf.length := rfl
      rw [hwritten, hread, List.flatten_cons, List.length_append]
      omega

theorem streamItem_eq (z : ZipStream) (item : ZipItem) :
    (streamItem crc32 z item).chunks.flatten = z.chunks.flatten ++ localPart crc32 item ∧
      (streamItem crc32 z item).offset = z.offset + (localPart crc32 item).length ∧
      (streamItem crc32 z item).entries = z.entries ++ [zipEntry crc32 z.offset item] := by
  obtain ⟨hchunks, hhashed, hwritten⟩ := fileStream_reads item.reads ⟨[], [], 0⟩
  simp only [List.nil_append, Nat.zero_add] at hchunks hhashed hwritten
  refine ⟨?_, ?_, ?_⟩
  · simp [streamItem, hchunks, hhashed, hwritten, localPart, ZipItem.content]
  · simp only [streamItem, hhashed, hwritten, localPart, ZipItem.content, List.length_append]
    omega
  · simp [streamItem, hhashed, hwritten, zipEntry, ZipItem.content]

/-- After any files the offset has gone on by what was written for them. -/
theorem streamItems (items : List ZipItem) (z : ZipStream) :
    (items.foldl (streamItem crc32) z).chunks.flatten = z.chunks.flatten ++ localParts crc32 items ∧
      (items.foldl (streamItem crc32) z).offset = z.offset + (localParts crc32 items).length ∧
      (items.foldl (streamItem crc32) z).entries = z.entries ++ zipEntries crc32 z.offset items := by
  induction items generalizing z with
  | nil => simp [localParts, zipEntries]
  | cons item items ih =>
    obtain ⟨hchunks, hoffset, hentries⟩ := streamItem_eq crc32 z item
    obtain ⟨hchunks', hoffset', hentries'⟩ := ih (streamItem crc32 z item)
    rw [List.foldl_cons]
    refine ⟨?_, ?_, ?_⟩
    · rw [hchunks', hchunks, List.append_assoc]
      rfl
    · rw [hoffset', hoffset, localParts, localParts, List.flatMap_cons, List.length_append]
      omega
    · rw [hentries', hentries, hoffset, zipEntries, List.append_assoc, List.singleton_append]

theorem centralDirSize_eq (central : List Bytes) (offset : Nat) :
    central.foldl (fun offset cdEntry => offset + cdEntry.length) offset = offset + central.flatten.length := by
  induction central generalizing offset with
  | nil => rfl
  | cons cdEntry central ih =>
    rw [List.foldl_cons, ih, List.flatten_cons, List.length_append]
    omega

/-- The central directory of files written from the start. -/
def directory (items : List ZipItem) : Bytes :=
  ((zipEntries crc32 0 items).map centralEntry).flatten

theorem zipEntries_length (offset : Nat) (items : List ZipItem) :
    (zipEntries crc32 offset items).length = items.length := by
  induction items generalizing offset with
  | nil => rfl
  | cons item items ih => rw [zipEntries, List.length_cons, List.length_cons, ih]

/-- The archive: the files, the directory and the end record, with the lengths
of the first two. -/
theorem zipArchive_eq (items : List ZipItem) :
    zipArchive crc32 items = localParts crc32 items ++ (directory crc32 items ++
      buildZipEocd items.length (directory crc32 items).length (localParts crc32 items).length) := by
  obtain ⟨hchunks, hoffset, hentries⟩ := streamItems crc32 items ⟨[], 0, []⟩
  simp only [List.flatten_nil, List.nil_append, Nat.zero_add] at hchunks hoffset hentries
  rw [zipArchive, streamArchive]
  simp only [List.flatten_append, hchunks, hoffset, hentries, centralDirSize_eq, zipEntries_length,
    Nat.add_sub_cancel_left, List.flatten_singleton, List.append_assoc, directory]

/-! ## Reading one record -/

/-- The entry as a reader has it. -/
def ZipEntry.record (entry : ZipEntry) : CentralRecord :=
  ⟨entry.filename, entry.fileSize, entry.fileSize, entry.crc32.toNat, entry.localOffset⟩

theorem readCentralEntry_eq {entry : ZipEntry} {rest : Bytes} (hname : entry.filename.length < 2 ^ 16)
    (hsize : entry.fileSize < 2 ^ 32) (hoffset : entry.localOffset < 2 ^ 32) :
    readCentralEntry (centralEntry entry ++ rest) = some (entry.record, rest) := by
  have hcrc := entry.crc32.toNat_lt
  rw [centralEntry, buildZipCentralEntry, List.append_assoc, readCentralEntry, numbers_fields]
  · simp only [List.map_cons, List.map_nil, block_append]
    rfl
  · rfl
  · simp
    omega

theorem readLocalHeader_eq {filename rest : Bytes} (hname : filename.length < 2 ^ 16) :
    readLocalHeader (buildZipLocalHeader filename ++ rest) = some (filename, rest) := by
  rw [buildZipLocalHeader, List.append_assoc, readLocalHeader, numbers_fields]
  · simp only [List.map_cons, List.map_nil, block_append, block_zero]
    rfl
  · rfl
  · simp
    omega

theorem readDataDescriptor_eq {crc : UInt32} {size : Nat} {rest : Bytes} (hsize : size < 2 ^ 32) :
    readDataDescriptor (buildZipDataDescriptor crc size ++ rest) = some (crc.toNat, size, size) := by
  have hcrc := crc.toNat_lt
  rw [buildZipDataDescriptor, readDataDescriptor, numbers_fields]
  · rfl
  · rfl
  · simp
    omega

/-! ## Reading the archive -/

/-- The numbers of an entry fit their fields. -/
def ZipEntry.Fits (entry : ZipEntry) : Prop :=
  entry.filename.length < 2 ^ 16 ∧ entry.fileSize < 2 ^ 32 ∧ entry.localOffset < 2 ^ 32

theorem readDirectory_eq {entries : List ZipEntry} (hfit : ∀ e ∈ entries, e.Fits) (rest : Bytes) :
    readDirectory entries.length ((entries.map centralEntry).flatten ++ rest) =
      some (entries.map ZipEntry.record, rest) := by
  induction entries with
  | nil => rfl
  | cons e entries ih =>
    obtain ⟨hname, hsize, hoffset⟩ := hfit e List.mem_cons_self
    rw [List.length_cons, List.map_cons, List.flatten_cons, List.append_assoc, readDirectory,
      readCentralEntry_eq hname hsize hoffset]
    simp only [Option.bind_eq_bind, Option.bind_some, ih fun e he => hfit e (List.mem_cons_of_mem _ he)]
    rfl

/-- What a reader should find of a file. -/
def ZipItem.file (item : ZipItem) : ZipFile :=
  ⟨item.filename, item.content, item.content.length, (crc32 item.content).toNat⟩

theorem readFile_eq {item : ZipItem} (front post : Bytes) (hname : item.filename.length < 2 ^ 16)
    (hsize : item.content.length < 2 ^ 32) :
    readFile (front ++ (localPart crc32 item ++ post)) (zipEntry crc32 front.length item).record =
      some (item.file crc32) := by
  have hdrop : (front ++ (localPart crc32 item ++ post)).drop front.length = buildZipLocalHeader item.filename ++
      (item.content ++ (buildZipDataDescriptor (crc32 item.content) item.content.length ++ post)) := by
    rw [List.drop_left, localPart, List.append_assoc, List.append_assoc]
  simp only [readFile, zipEntry, ZipEntry.record, hdrop, readLocalHeader_eq hname, block_append,
    readDataDescriptor_eq hsize, Option.bind_eq_bind, Option.bind_some, guard, and_self, if_true, Option.pure_def,
    ZipItem.file]

theorem readFiles_eq {items : List ZipItem} (front post : Bytes)
    (hnames : ∀ item ∈ items, item.filename.length < 2 ^ 16)
    (hsizes : ∀ item ∈ items, item.content.length < 2 ^ 32) :
    ((zipEntries crc32 front.length items).map ZipEntry.record).mapM
        (readFile (front ++ (localParts crc32 items ++ post))) =
      some (items.map (ZipItem.file crc32)) := by
  induction items generalizing front with
  | nil => rfl
  | cons item items ih =>
    have hfirst := readFile_eq crc32 front (localParts crc32 items ++ post) (hnames item List.mem_cons_self)
      (hsizes item List.mem_cons_self)
    have hrest := ih (front ++ localPart crc32 item) (fun item h => hnames item (List.mem_cons_of_mem _ h))
      fun item h => hsizes item (List.mem_cons_of_mem _ h)
    have harchive : front ++ (localParts crc32 (item :: items) ++ post) =
        front ++ (localPart crc32 item ++ (localParts crc32 items ++ post)) := by
      rw [localParts, List.flatMap_cons, List.append_assoc]
      rfl
    rw [List.length_append, List.append_assoc, ← harchive] at hrest
    rw [← harchive] at hfirst
    rw [zipEntries, List.map_cons, List.mapM_cons, hfirst, Option.bind_eq_bind, Option.bind_some, hrest]
    rfl

/-! ## The lengths -/

theorem localPart_length (item : ZipItem) : item.content.length ≤ (localPart crc32 item).length := by
  rw [localPart, List.length_append, List.length_append]
  omega

theorem content_le {items : List ZipItem} {item : ZipItem} (h : item ∈ items) :
    item.content.length ≤ (localParts crc32 items).length := by
  induction items with
  | nil => cases h
  | cons first items ih =>
    rw [localParts, List.flatMap_cons, List.length_append]
    rcases List.mem_cons.mp h with rfl | h
    · have hle := localPart_length crc32 item
      omega
    · have hle := ih h
      rw [localParts] at hle
      omega

theorem zipEntries_fit {items : List ZipItem} {offset : Nat} (hnames : ∀ item ∈ items, item.filename.length < 2 ^ 16)
    (hlen : offset + (localParts crc32 items).length < 2 ^ 32) : ∀ e ∈ zipEntries crc32 offset items, e.Fits := by
  induction items generalizing offset with
  | nil =>
    intro e he
    cases he
  | cons item items ih =>
    rw [localParts, List.flatMap_cons, List.length_append] at hlen
    intro e he
    rcases List.mem_cons.mp he with rfl | he
    · have hle := localPart_length crc32 item
      refine ⟨hnames item List.mem_cons_self, ?_, ?_⟩
      · show item.content.length < 2 ^ 32
        omega
      · show offset < 2 ^ 32
        omega
    · refine ih (fun item h => hnames item (List.mem_cons_of_mem _ h)) ?_ e he
      rw [localParts]
      omega

theorem eocd_length {count size offset : Nat} : (buildZipEocd count size offset).length = 22 := by
  rw [buildZipEocd, fields_length]
  rfl

/-- What a reader does with an end record that says where the directory is. -/
theorem readArchive_eq {archive rest : Bytes} {count size offset : Nat} {entries : List CentralRecord}
    (hend : archive.drop (archive.length - 22) = buildZipEocd count size offset) (hcount : count < 2 ^ 16)
    (hlen : offset + size + 22 = archive.length) (hoffset : offset < 2 ^ 32) (hsize : size < 2 ^ 32)
    (hdir : readDirectory count (archive.drop offset) = some (entries, rest)) (hrest : rest.length = 22) :
    readArchive archive = entries.mapM (readFile archive) := by
  have hnumbers : numbers [4, 2, 2, 2, 2, 4, 4, 2] (archive.drop (archive.length - 22)) =
      some ([0x06054b50, 0, 0, count, count, size, offset, 0], []) := by
    rw [hend, buildZipEocd, ← List.append_nil (fields _), numbers_fields]
    · rfl
    · rfl
    · simp
      omega
  unfold readArchive
  rw [hnumbers]
  simp only [guard, hdir, hrest, hlen, true_and, if_true, Option.pure_def, Option.bind_eq_bind, Option.bind_some]

/-- An archive whose files and whose directory are below 2³² bytes is read back. -/
theorem readArchive_zipArchive {items : List ZipItem} (hcount : items.length < 2 ^ 16)
    (hnames : ∀ item ∈ items, item.filename.length < 2 ^ 16) (hparts : (localParts crc32 items).length < 2 ^ 32)
    (hdirectory : (directory crc32 items).length < 2 ^ 32) :
    readArchive (zipArchive crc32 items) = some (items.map (ZipItem.file crc32)) := by
  have harchive := zipArchive_eq crc32 items
  obtain ⟨files, hfiles⟩ : ∃ files, files = localParts crc32 items := ⟨_, rfl⟩
  obtain ⟨dir, hdir⟩ : ∃ dir, dir = directory crc32 items := ⟨_, rfl⟩
  rw [← hfiles, ← hdir] at harchive
  have hlength : files.length + dir.length + 22 = (zipArchive crc32 items).length := by
    rw [harchive, List.length_append, List.length_append, eocd_length]
    omega
  have hend : (zipArchive crc32 items).drop ((zipArchive crc32 items).length - 22) =
      buildZipEocd items.length dir.length files.length := by
    rw [← hlength, Nat.add_sub_cancel, harchive, ← List.append_assoc, ← List.length_append, List.drop_left]
  have hentries : readDirectory items.length ((zipArchive crc32 items).drop files.length) =
      some ((zipEntries crc32 0 items).map ZipEntry.record, buildZipEocd items.length dir.length files.length) := by
    have hfit : ∀ e ∈ zipEntries crc32 0 items, e.Fits := by
      exact zipEntries_fit crc32 hnames (by rwa [Nat.zero_add])
    have hread := readDirectory_eq hfit (buildZipEocd items.length dir.length files.length)
    rw [zipEntries_length] at hread
    rw [harchive, List.drop_left, ← hread, hdir, directory]
  have hread : ((zipEntries crc32 0 items).map ZipEntry.record).mapM (readFile (zipArchive crc32 items)) =
      some (items.map (ZipItem.file crc32)) := by
    rw [harchive, hfiles]
    refine readFiles_eq crc32 [] _ hnames ?_
    intro item hitem
    exact Nat.lt_of_le_of_lt (content_le crc32 hitem) hparts
  rw [readArchive_eq hend hcount hlength (hfiles ▸ hparts) (hdir ▸ hdirectory) hentries eocd_length, hread]

/-- **The archive holds the files.** For any files, in any reads: where the
archive is below 2³² bytes, with fewer than 2¹⁶ files and names below 2¹⁶ bytes,
a reader that starts from the last 22 bytes finds exactly these files, in order,
with the length and the checksum of their contents; and every data descriptor
says what the entry of its file says. -/
theorem zip_round_trip (items : List ZipItem) (hcount : items.length < 2 ^ 16)
    (hnames : ∀ item ∈ items, item.filename.length < 2 ^ 16) (hlen : (zipArchive crc32 items).length < 2 ^ 32) :
    readArchive (zipArchive crc32 items) = some (items.map (ZipItem.file crc32)) := by
  rw [zipArchive_eq, List.length_append, List.length_append] at hlen
  exact readArchive_zipArchive crc32 hcount hnames (by omega) (by omega)

/-! ## What a reader requires -/

/-- A name that is read is no longer than its field can say. -/
theorem readCentralEntry_name {bs rest : Bytes} {entry : CentralRecord}
    (h : readCentralEntry bs = some (entry, rest)) : entry.filename.length < 2 ^ 16 := by
  unfold readCentralEntry at h
  split at h
  · rename_i hnumbers
    have hlt := numbers_lt hnumbers
    simp only [List.forall₂_cons] at hlt
    simp only [guard, Option.bind_eq_bind] at h
    split at h
    · simp only [Option.pure_def, Option.bind_some] at h
      obtain ⟨⟨filename, bs'⟩, hblock, h⟩ := Option.bind_eq_some_iff.mp h
      obtain ⟨⟨extra, bs''⟩, hextra, h⟩ := Option.bind_eq_some_iff.mp h
      cases h
      rw [block] at hblock
      split at hblock
      · cases hblock
        have hname := hlt.2.2.2.2.2.2.2.2.2.2.1
        rw [List.length_take]
        omega
      · cases hblock
    · cases h
  · cases h

theorem readDirectory_names {count : Nat} {bs rest : Bytes} {entries : List CentralRecord}
    (h : readDirectory count bs = some (entries, rest)) : ∀ e ∈ entries, e.filename.length < 2 ^ 16 := by
  induction count generalizing bs entries with
  | zero =>
    cases h
    simp
  | succ count ih =>
    simp only [readDirectory, Option.bind_eq_bind] at h
    obtain ⟨⟨entry, bs'⟩, hentry, h⟩ := Option.bind_eq_some_iff.mp h
    obtain ⟨⟨entries', rest'⟩, hentries, h⟩ := Option.bind_eq_some_iff.mp h
    cases h
    intro e he
    rcases List.mem_cons.mp he with rfl | he
    · exact readCentralEntry_name hentry
    · exact ih hentries e he

theorem mem_of_mapM {α β : Type} {f : α → Option β} {as : List α} {bs : List β} (h : as.mapM f = some bs) {b : β}
    (hb : b ∈ bs) : ∃ a ∈ as, f a = some b := by
  induction as generalizing bs with
  | nil =>
    cases h
    cases hb
  | cons a as ih =>
    rw [List.mapM_cons, Option.bind_eq_bind] at h
    obtain ⟨b', hfirst, h⟩ := Option.bind_eq_some_iff.mp h
    obtain ⟨bs', hrest, h⟩ := Option.bind_eq_some_iff.mp h
    cases h
    rcases List.mem_cons.mp hb with rfl | hb
    · exact ⟨a, List.mem_cons_self, hfirst⟩
    · obtain ⟨a', ha', hfa⟩ := ih hrest hb
      exact ⟨a', List.mem_cons_of_mem _ ha', hfa⟩

theorem readFile_name {archive : Bytes} {entry : CentralRecord} {file : ZipFile}
    (h : readFile archive entry = some file) : file.filename = entry.filename := by
  simp only [readFile, Option.bind_eq_bind] at h
  obtain ⟨⟨filename, bs⟩, -, h⟩ := Option.bind_eq_some_iff.mp h
  obtain ⟨⟨content, bs'⟩, -, h⟩ := Option.bind_eq_some_iff.mp h
  obtain ⟨⟨crc, compressedSize, size⟩, -, h⟩ := Option.bind_eq_some_iff.mp h
  simp only [guard] at h
  split at h
  · rename_i hguard
    cases h
    exact hguard.1
  · cases h

/-- The first entries of a directory, and what is left of it. -/
theorem readDirectory_first {entries : List ZipEntry} (hfit : ∀ e ∈ entries, e.Fits) (count : Nat)
    (hcount : count ≤ entries.length) (rest : Bytes) :
    readDirectory count ((entries.map centralEntry).flatten ++ rest) =
      some ((entries.take count).map ZipEntry.record, ((entries.drop count).map centralEntry).flatten ++ rest) := by
  have hfirst : ∀ e ∈ entries.take count, e.Fits := fun e he => hfit e (List.mem_of_mem_take he)
  have hread := readDirectory_eq hfirst (((entries.drop count).map centralEntry).flatten ++ rest)
  rw [List.length_take, Nat.min_eq_left hcount, ← List.append_assoc, ← List.flatten_append, ← List.map_append,
    List.take_append_drop] at hread
  exact hread

/-- An archive that is read is one whose files and directory its end record can
say the lengths of; the reader has found as many entries as are left of the
count, and nothing between them and the end record. -/
theorem readArchive_some {items : List ZipItem} {files : List ZipFile}
    (h : readArchive (zipArchive crc32 items) = some files) :
    (localParts crc32 items).length < 2 ^ 32 ∧ (directory crc32 items).length < 2 ^ 32 ∧
      ∃ entries rest, readDirectory (items.length % 2 ^ 16)
        (directory crc32 items ++
          buildZipEocd items.length (directory crc32 items).length (localParts crc32 items).length) =
            some (entries, rest) ∧ rest.length = 22 ∧ entries.mapM (readFile (zipArchive crc32 items)) = some files := by
  have harchive := zipArchive_eq crc32 items
  obtain ⟨parts, hparts⟩ : ∃ parts, parts = localParts crc32 items := ⟨_, rfl⟩
  obtain ⟨dir, hdir⟩ : ∃ dir, dir = directory crc32 items := ⟨_, rfl⟩
  rw [← hparts, ← hdir] at harchive ⊢
  have hlength : (zipArchive crc32 items).length = parts.length + dir.length + 22 := by
    rw [harchive, List.length_append, List.length_append, eocd_length]
    omega
  have hnumbers : numbers [4, 2, 2, 2, 2, 4, 4, 2] ((zipArchive crc32 items).drop ((zipArchive crc32 items).length - 22)) =
      some ([0x06054b50, 0, 0, items.length % 2 ^ 16, items.length % 2 ^ 16, dir.length % 2 ^ 32, parts.length % 2 ^ 32, 0],
        []) := by
    rw [hlength, Nat.add_sub_cancel, harchive, ← List.append_assoc, ← List.length_append, List.drop_left, buildZipEocd,
      ← List.append_nil (fields _), numbers_fields_mod]
    · rfl
    · rfl
  unfold readArchive at h
  rw [hnumbers] at h
  simp only [guard, Option.bind_eq_bind] at h
  split at h
  · rename_i hguard
    have hsum := hguard.2.2.2
    have hpartsLt : parts.length < 2 ^ 32 := by omega
    have hdirLt : dir.length < 2 ^ 32 := by omega
    rw [Nat.mod_eq_of_lt hpartsLt] at h
    obtain ⟨-, -, h⟩ := Option.bind_eq_some_iff.mp h
    obtain ⟨⟨entries, rest⟩, hentries, h⟩ := Option.bind_eq_some_iff.mp h
    rw [harchive, List.drop_left] at hentries
    refine ⟨hpartsLt, hdirLt, entries, rest, hentries, ?_⟩
    split at h
    · rename_i hrest
      obtain ⟨-, -, h⟩ := Option.bind_eq_some_iff.mp h
      exact ⟨hrest, h⟩
    · cases h
  · cases h

/-- The names of the files a reader finds fit their fields. -/
theorem readArchive_names {items : List ZipItem} {files : List ZipFile}
    (h : readArchive (zipArchive crc32 items) = some files) : ∀ file ∈ files, file.filename.length < 2 ^ 16 := by
  obtain ⟨-, -, entries, rest, hentries, -, hfiles⟩ := readArchive_some crc32 h
  intro file hfile
  obtain ⟨entry, hentry, hread⟩ := mem_of_mapM hfiles hfile
  rw [readFile_name hread]
  exact readDirectory_names hentries entry hentry

/-- A reader finds no more files than the count can say. -/
theorem readArchive_count {items : List ZipItem} {files : List ZipFile}
    (h : readArchive (zipArchive crc32 items) = some files) (hnames : ∀ item ∈ items, item.filename.length < 2 ^ 16) :
    items.length < 2 ^ 16 := by
  obtain ⟨hparts, -, entries, rest, hentries, hrest, -⟩ := readArchive_some crc32 h
  by_contra hmany
  have hfit : ∀ e ∈ zipEntries crc32 0 items, e.Fits := zipEntries_fit crc32 hnames (by rwa [Nat.zero_add])
  have hlen := zipEntries_length crc32 0 items
  have hlt : items.length % 2 ^ 16 < items.length := by omega
  rw [directory, readDirectory_first hfit _ (by omega)] at hentries
  cases hentries
  -- an entry is left before the end record
  obtain ⟨e, left, hleft⟩ : ∃ e left, (zipEntries crc32 0 items).drop (items.length % 2 ^ 16) = e :: left := by
    refine List.exists_cons_of_length_pos ?_
    rw [List.length_drop]
    omega
  rw [hleft, List.map_cons, List.flatten_cons, List.length_append, List.length_append, eocd_length, centralEntry,
    buildZipCentralEntry, List.length_append, fields_length] at hrest
  simp only [List.map_cons, List.sum_cons] at hrest
  omega

/-- The checksums of the two contents below. -/
def sampleCrc (content : Bytes) : UInt32 := if content = [0x61] then 0xe8b7be43 else 0

/-- `a` with one byte, and an empty `b`. -/
def sampleItems : List ZipItem := [⟨[0x61], [[0x61]]⟩, ⟨[0x62], []⟩]

theorem zip_round_trip_sample :
    readArchive (zipArchive sampleCrc sampleItems) =
      some [⟨[0x61], [0x61], 1, 0xe8b7be43⟩, ⟨[0x62], [], 0, 0⟩] :=
  zip_round_trip sampleCrc sampleItems (by decide) (by decide) (by decide +kernel)

end

end Nxfr.Web
