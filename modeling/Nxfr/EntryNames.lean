/-
The names in `all.zip`, as a reader of the archive finds them.
`sanitize_filename` takes many names to one and the manifest may have a name
twice, so two entries may have one name; extracted by name, the later file then
replaces the earlier one. And an archive whose records cannot say how long it is
(see `allZip_fields_exact`) is not read at all.
-/
import Nxfr.ShareArchive

namespace Nxfr.Web

section

variable (cls : CharClass)

/-- A character that is kept as it is. -/
def isKept (c : Char) : Bool := cls.isAlphanumeric c || c == '.' || c == '-' || c == '_'

/-- The underscore, or a character that becomes one. -/
def isBlank (c : Char) : Bool := !isKept cls c || c == '_'

def cleanChar (c : Char) : Char := if isKept cls c then c else '_'

/-- Two characters that are cleaned to one. -/
def Alike (c d : Char) : Prop := c = d ∨ (isBlank cls c = true ∧ isBlank cls d = true)

/-- Two names that are cleaned to one: character by character they are the same,
or both blanks. -/
def AlikeNames (a b : String) : Prop := List.Forall₂ (Alike cls) a.toList b.toList

end

/-- The name an item goes by: a name of dots, or of nothing, is replaced by one
with random bytes. -/
def givenName (randBytes : List UInt8) (name : String) : String :=
  if name.toList.all (· == '.') then "uploaded_file_" ++ hexEncode randBytes ++ ".bin" else name

/-- The names the files that are there go by. -/
def sharedNames (manifest : List ArchiveItem) : List String :=
  manifest.filterMap fun item => match item.file with
    | .opens _ => some (givenName item.randBytes item.name)
    | .missing | .unopenable | .breaks _ => none

/-- A directory after a file of an archive has been extracted to it. -/
def extractTo (dir : Bytes → Option Bytes) (file : ZipFile) : Bytes → Option Bytes :=
  Function.update dir file.filename (some file.content)

/-- A directory with the files of an archive, extracted in order. -/
def extracted (files : List ZipFile) : Bytes → Option Bytes := files.foldl extractTo fun _ => none

/-- The body of the answer is an archive that can be read, no name comes twice in
it, and extracting it by name gives every file that is shared. -/
def KeepsEveryFile (cls : CharClass) (crc32 : Bytes → UInt32) (manifest : List ArchiveItem) : Prop :=
  ∃ archive files, Chunked.decode (allZipBody cls crc32 manifest) = some (archive, []) ∧
    readArchive archive = some files ∧ (files.map (·.filename)).Nodup ∧
      ∀ item ∈ sharedItems cls manifest, extracted files item.filename = some item.content

/-- The files are few, have names that fit their fields, and come with 46 bytes
and the name of each to fewer than 2³² bytes. -/
structure FitsFields (items : List ZipItem) : Prop where
  count : items.length < 2 ^ 16
  names : ∀ item ∈ items, item.filename.length < 2 ^ 16
  room : (items.map ZipItem.room).sum < 2 ^ 32

variable {cls : CharClass} {crc32 : Bytes → UInt32}

/-! ## Cleaned names -/

theorem isKept_iff {c : Char} : isKept cls c = true ↔ Plain cls c := by
  simp [isKept, Plain, or_assoc]

theorem cleanChar_eq_iff {c d : Char} : cleanChar cls c = cleanChar cls d ↔ Alike cls c d := by
  have hunder : isKept cls '_' = true := by simp [isKept]
  unfold cleanChar Alike isBlank
  by_cases hc : isKept cls c = true
  · by_cases hd : isKept cls d = true
    · simp only [hc, hd, if_true, Bool.not_true, Bool.false_or, beq_iff_eq]
      grind
    · simp only [hc, hd, if_true, Bool.not_true, Bool.false_or, beq_iff_eq]
      grind
  · by_cases hd : isKept cls d = true
    · simp only [hc, hd, if_true, Bool.not_true, Bool.false_or, beq_iff_eq]
      grind
    · simp [hc, hd]

theorem map_clean_eq_iff {a b : String} :
    a.toList.map (cleanChar cls) = b.toList.map (cleanChar cls) ↔ AlikeNames cls a b := by
  rw [AlikeNames, ← List.forall₂_eq_eq_eq, List.forall₂_map_left_iff, List.forall₂_map_right_iff]
  simp only [cleanChar_eq_iff]

theorem cleanChar_eq_dot {c : Char} : cleanChar cls c = '.' ↔ c = '.' := by
  have hdot : isKept cls '.' = true := by simp [isKept]
  unfold cleanChar
  split
  · exact Iff.rfl
  · rename_i hc
    constructor
    · intro h
      exact absurd h (by decide)
    · intro h
      exact absurd (h ▸ hdot) hc

theorem map_clean_plain {s : String} (h : PlainText cls s) : s.toList.map (cleanChar cls) = s.toList := by
  have hkept : ∀ c ∈ s.toList, cleanChar cls c = id c := fun c hc => if_pos (isKept_iff.mpr (h c hc))
  rw [List.map_congr_left hkept, List.map_id]

/-- Where nothing is left of a text when dots are taken off its ends, it is all
dots. -/
theorem all_dots_of_trim {cs : List Char}
    (h : ((cs.dropWhile (· == '.')).reverse.dropWhile (· == '.')).reverse = []) : cs.all (· == '.') = true := by
  have hrest : ∀ c ∈ cs.dropWhile (· == '.'), (c == '.') = true := by
    simpa using h
  rw [List.all_eq_true]
  clear h
  induction cs with
  | nil => simp
  | cons c cs ih =>
    by_cases hc : (c == '.') = true
    · simp only [List.dropWhile_cons, hc, if_true] at hrest
      intro d hd
      rcases List.mem_cons.mp hd with rfl | hd
      · exact hc
      · exact ih hrest d hd
    · rw [List.dropWhile_cons, if_neg hc] at hrest
      exact hrest

/-- `sanitize_filename` cleans the name an item goes by. -/
theorem sanitizeFilename_toList (randBytes : List UInt8) (name : String) :
    (sanitizeFilename cls randBytes name).toList = (givenName randBytes name).toList.map (cleanChar cls) := by
  have hmap : (name.toList.map fun c => if cls.isAlphanumeric c || c == '.' || c == '-' || c == '_' then c else '_') =
      name.toList.map (cleanChar cls) := rfl
  rw [sanitizeFilename, givenName]
  simp only [hmap]
  by_cases hdots : name.toList.all (· == '.') = true
  · have hall : ∀ c ∈ name.toList.map (cleanChar cls), c = '.' := by
      intro c hc
      obtain ⟨d, hd, rfl⟩ := List.mem_map.mp hc
      rw [cleanChar_eq_dot]
      simpa using List.all_eq_true.mp hdots d hd
    rw [if_pos (.inr (.inr (.inr (trim_eq_nil hall)))), if_pos hdots]
    exact (map_clean_plain (replaced_proper randBytes).2).symm
  · have hkept : ¬ (name.toList.map (cleanChar cls)).all (· == '.') = true := by
      rw [List.all_map, List.all_eq_true]
      intro hall
      refine hdots (List.all_eq_true.mpr ?_)
      intro c hc
      simpa [cleanChar_eq_dot] using hall c hc
    rw [if_neg hdots, if_neg, String.toList_ofList]
    rintro (h | h | h | h)
    · exact hkept (by rw [h]; rfl)
    · exact hkept (by rw [h]; rfl)
    · exact hkept (by rw [h]; rfl)
    · exact hkept (all_dots_of_trim h)

/-- The bytes of a cleaned name. -/
def cleanedBytes (cls : CharClass) (name : String) : Bytes :=
  (String.ofList (name.toList.map (cleanChar cls))).toUTF8.data.toList

theorem toUTF8_inj {a b : String} (h : a.toUTF8.data.toList = b.toUTF8.data.toList) : a = b := by
  have hdata : a.toUTF8.data = b.toUTF8.data := Array.toList_inj.mp h
  exact String.toByteArray_inj.mp (ByteArray.ext hdata)

theorem cleanedBytes_eq_iff {a b : String} : cleanedBytes cls a = cleanedBytes cls b ↔ AlikeNames cls a b := by
  rw [← map_clean_eq_iff]
  constructor
  · intro h
    exact String.ofList_injective (toUTF8_inj h)
  · intro h
    rw [cleanedBytes, cleanedBytes, h]

theorem filename_eq (item : ArchiveItem) :
    item.filename cls = cleanedBytes cls (givenName item.randBytes item.name) := by
  rw [ArchiveItem.filename, cleanedBytes, ← sanitizeFilename_toList, String.ofList_toList]

theorem sharedItems_filenames (manifest : List ArchiveItem) :
    (sharedItems cls manifest).map (·.filename) = (sharedNames manifest).map (cleanedBytes cls) := by
  induction manifest with
  | nil => rfl
  | cons item items ih =>
    rw [sharedItems, sharedNames, List.filterMap_cons, List.filterMap_cons]
    cases item.file with
    | missing => exact ih
    | unopenable => exact ih
    | opens reads => exact congrArg₂ List.cons (filename_eq item) ih
    | breaks reads => exact ih

/-! ## Entries and files -/

/-- What is extracted under a name none of the files has stays. -/
theorem extract_other {files : List ZipFile} {name : Bytes} (h : name ∉ files.map (·.filename))
    (dir : Bytes → Option Bytes) : files.foldl extractTo dir name = dir name := by
  induction files generalizing dir with
  | nil => rfl
  | cons file files ih =>
    rw [List.map_cons, List.mem_cons, not_or] at h
    rw [List.foldl_cons, ih h.2, extractTo, Function.update_of_ne h.1]

theorem extract_distinct {files : List ZipFile} (h : (files.map (·.filename)).Nodup) (dir : Bytes → Option Bytes) :
    ∀ file ∈ files, files.foldl extractTo dir file.filename = some file.content := by
  induction files generalizing dir with
  | nil => simp
  | cons first files ih =>
    rw [List.map_cons, List.nodup_cons] at h
    intro file hfile
    rw [List.foldl_cons]
    rcases List.mem_cons.mp hfile with rfl | hfile
    · rw [extract_other h.1, extractTo, Function.update_self]
    · exact ih h.2 _ file hfile

/-- The names a reader finds are those of the files that are shared. -/
theorem files_filenames (items : List ZipItem) :
    (items.map (ZipItem.file crc32)).map (·.filename) = items.map (·.filename) := by
  rw [List.map_map]
  rfl

/-- Files that fit are read back as they are. -/
theorem FitsFields.read {items : List ZipItem} (h : FitsFields items) :
    readArchive (zipArchive crc32 items) = some (items.map (ZipItem.file crc32)) := by
  have hparts := localParts_length crc32 items
  have hdirectory := directory_length crc32 items
  have hroom := h.room
  exact readArchive_zipArchive crc32 h.count h.names (by omega) (by omega)

/-- An archive that is read and gives every file by its name has files that fit. -/
theorem fitsFields_of_read {items : List ZipItem} {files : List ZipFile}
    (h : readArchive (zipArchive crc32 items) = some files)
    (hextracts : ∀ item ∈ items, extracted files item.filename = some item.content) : FitsFields items := by
  have hnames : ∀ item ∈ items, item.filename.length < 2 ^ 16 := by
    intro item hitem
    have hextract := hextracts item hitem
    by_contra hlong
    rw [extracted, extract_other] at hextract
    · cases hextract
    · intro hmem
      obtain ⟨file, hfile, hname⟩ := List.mem_map.mp hmem
      have hshort := readArchive_names crc32 h file hfile
      rw [hname] at hshort
      exact hlong hshort
  refine ⟨readArchive_count crc32 h hnames, hnames, ?_⟩
  rw [← localParts_length crc32]
  exact (readArchive_some crc32 h).1

/-- **The archive keeps every file.** For every manifest whose files can be
read: the body is an archive, no two of its entries have one name, and every file
is extracted from it, just where no two of the names the files go by are the same
up to characters that are replaced by an underscore, and the files fit the fields
of the archive. -/
theorem allZip_keeps_every_file (cls : CharClass) (crc32 : Bytes → UInt32) {manifest : List ArchiveItem}
    (h : readable manifest = true) :
    KeepsEveryFile cls crc32 manifest ↔
      (sharedNames manifest).Pairwise (fun a b => ¬ AlikeNames cls a b) ∧ FitsFields (sharedItems cls manifest) := by
  have hdecode : Chunked.decode (allZipBody cls crc32 manifest) = some (zipArchive crc32 (sharedItems cls manifest), []) := by
    rw [decode_allZipBody, if_pos h]
  have hnodup : ((sharedItems cls manifest).map (·.filename)).Nodup ↔
      (sharedNames manifest).Pairwise fun a b => ¬ AlikeNames cls a b := by
    rw [sharedItems_filenames, List.Nodup, List.pairwise_map]
    simp only [ne_eq, cleanedBytes_eq_iff]
  constructor
  · rintro ⟨archive, files, hbody, hread, hdistinct, hextracts⟩
    rw [hdecode] at hbody
    cases hbody
    have hfits := fitsFields_of_read hread hextracts
    rw [hfits.read] at hread
    cases hread
    rw [files_filenames] at hdistinct
    exact ⟨hnodup.mp hdistinct, hfits⟩
  · rintro ⟨hnames, hfits⟩
    have hdistinct : (((sharedItems cls manifest).map (ZipItem.file crc32)).map (·.filename)).Nodup := by
      rw [files_filenames]
      exact hnodup.mpr hnames
    refine ⟨_, _, hdecode, hfits.read, hdistinct, ?_⟩
    intro item hitem
    exact extract_distinct hdistinct _ _ (List.mem_map_of_mem hitem)

/-- Two files of different folders, and a name with a blank. -/
def namedAlike : List ArchiveItem :=
  [⟨"notes.txt", .opens [[1]], []⟩, ⟨"notes.txt", .opens [[2]], []⟩, ⟨"a b.txt", .opens [[3]], []⟩,
    ⟨"a_b.txt", .opens [[4]], []⟩]

/-- The archive is read, but of each two files of one name only the later is
extracted. -/
theorem namedAlike_lost :
    readable namedAlike = true ∧ ¬ KeepsEveryFile asciiClass (fun _ => 0) namedAlike ∧
      ∃ archive files, Chunked.decode (allZipBody asciiClass (fun _ => 0) namedAlike) = some (archive, []) ∧
        readArchive archive = some files ∧ extracted files "notes.txt".toUTF8.data.toList = some [2] ∧
        extracted files "a_b.txt".toUTF8.data.toList = some [4] := by
  have hreadable : readable namedAlike = true := rfl
  have hfits : FitsFields (sharedItems asciiClass namedAlike) :=
    ⟨by decide +kernel, by decide +kernel, by decide +kernel⟩
  have hdecode := decode_allZipBody asciiClass (fun _ => 0) namedAlike
  rw [if_pos hreadable] at hdecode
  refine ⟨hreadable, ?_, _, _, hdecode, hfits.read, by decide +kernel, by decide +kernel⟩
  rintro ⟨archive, files, hbody, hread, hdistinct, -⟩
  rw [hdecode] at hbody
  cases hbody
  rw [hfits.read] at hread
  cases hread
  exact absurd hdistinct (by decide +kernel)

/-- Three names that stay apart. -/
def namedApart : List ArchiveItem :=
  [⟨"notes.txt", .opens [[1]], []⟩, ⟨"...", .opens [[2]], [0xca, 0xfe, 0xf0, 0x0d]⟩, ⟨"a b.txt", .opens [[3]], []⟩]

instance (cls : CharClass) (c d : Char) : Decidable (Alike cls c d) :=
  inferInstanceAs (Decidable (c = d ∨ (isBlank cls c = true ∧ isBlank cls d = true)))

theorem allZip_keeps_every_file_apart : KeepsEveryFile asciiClass (fun _ => 0) namedApart :=
  (allZip_keeps_every_file asciiClass (fun _ => 0) rfl).mpr
    ⟨by simp only [AlikeNames]; decide +kernel, by decide +kernel, by decide +kernel, by decide +kernel⟩

end Nxfr.Web
