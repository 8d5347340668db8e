import Playspace.Lib.Machine
import Playspace.Ninshiki.FileInput

/-!
# Loading the recordings

`getfiledatas` fills the slots of one folder after another, the files in the
order of their names. What comes of a folder does not depend on the others
(`getfiledatas_eq`): it fits, or a negative row count ends the program, or there
is one file too many (`loadFolder_cases`). A slot stays blank where there is no
file for it, or no row in the file (`blank_slot_iff`).
-/

namespace Playspace.Ninshiki

open Playspace.Lib

/-! ## The first entry that is still blank -/

section Blank

variable {α : Type*}

theorem getElem?_blank (done : List α) (n : Nat) (blank : α) :
    (done ++ List.replicate (n + 1) blank)[done.length]? = some blank := by
  rw [List.getElem?_append_right (Nat.le_refl _)]
  simp

theorem set_blank (done : List α) (n : Nat) (blank a : α) :
    (done ++ List.replicate (n + 1) blank).set done.length a =
      (done ++ [a]) ++ List.replicate n blank := by
  simp [List.set_append_right, List.replicate_succ]

end Blank

/-! ## Loading a file -/

section Loading

variable {K : Type} {cityNum fileCount : Nat} {file : VoiceFile K}
  {data : List (List (Recording K))} {folder : List (Recording K)} {slot : Recording K}

/-- What is read from a file. -/
def rowOf (file : VoiceFile K) (i : Nat) : Frame K :=
  (List.range FileInput.dimension).map (file.tmp i)

def recordingOf (file : VoiceFile K) : Recording K :=
  (List.range file.rows.toNat).map (rowOf file)

/-- Row after row, of the blank ones that `resize` made. -/
theorem push_rows (file : VoiceFile K) {m n : Nat} (h : m ≤ n) :
    (List.range m).foldlM
        (fun slot i => modifyAt slot i fun frame => .ok (frame ++ rowOf file i))
        (List.replicate n []) =
      .ok ((List.range m).map (rowOf file) ++ List.replicate (n - m) []) := by
  induction m with
  | zero => rfl
  | succ m ih =>
      rw [List.range_succ, List.foldlM_append, ih (Nat.le_of_succ_le h), ok_bind]
      have hget := getElem?_blank ((List.range m).map (rowOf file)) (n - (m + 1)) []
      have hset := set_blank ((List.range m).map (rowOf file)) (n - (m + 1)) [] (rowOf file m)
      rw [List.length_map, List.length_range] at hget hset
      rw [show n - m = n - (m + 1) + 1 by omega, List.foldlM_cons, modifyAt_eq hget]
      show Except.ok (List.set _ m (rowOf file m)) = _
      rw [hset, List.map_append]
      rfl

theorem resize_blank (rows : Int) (h : 0 ≤ rows) :
    resize ([] : Recording K) rows [] = .ok (List.replicate rows.toNat []) := by
  rw [resize, if_neg (not_lt.mpr h)]
  simp

/-- The reads of a row, one push after another, add the row. -/
theorem push_row_at (file : VoiceFile K) (cityNum fileCount i : Nat)
    (data : List (List (Recording K))) :
    (List.range FileInput.dimension).foldlM
        (fun data j => modifyAt data cityNum fun folder =>
          modifyAt folder fileCount fun slot =>
            modifyAt slot i fun frame => .ok (frame ++ [file.tmp i j]))
        data =
      modifyAt data cityNum fun folder => modifyAt folder fileCount fun slot =>
        modifyAt slot i fun frame => .ok (frame ++ rowOf file i) := by
  have hne : List.range FileInput.dimension ≠ [] := by decide
  rw [foldlM_modifyAt_of_ne_nil (fun j folder => modifyAt folder fileCount fun slot =>
    modifyAt slot i fun frame => .ok (frame ++ [file.tmp i j])) hne]
  congr 1
  funext folder
  rw [foldlM_modifyAt_of_ne_nil (fun j slot =>
    modifyAt slot i fun frame => .ok (frame ++ [file.tmp i j])) hne]
  congr 1
  funext slot
  rw [foldlM_modifyAt_of_ne_nil (fun j frame => .ok (frame ++ [file.tmp i j])) hne]
  congr 1
  funext frame
  exact foldlM_push (file.tmp i) (List.range FileInput.dimension) frame

/-- A file that has its slot. -/
theorem loadFile_slot (hdata : data[cityNum]? = some folder)
    (hslot : folder[fileCount]? = some []) :
    FileInput.loadFile cityNum fileCount file data =
      if file.rows < 0 then .error .lengthError
      else .ok (data.set cityNum (folder.set fileCount (recordingOf file))) := by
  have hcity := (List.getElem?_eq_some_iff.mp hdata).1
  have hfile := (List.getElem?_eq_some_iff.mp hslot).1
  simp only [FileInput.loadFile, push_row_at, modifyAt_eq hdata, modifyAt_eq hslot]
  split
  · next hneg =>
      rw [resize, if_pos hneg]
      rfl
  · next hrows =>
      rw [resize_blank file.rows (not_lt.mp hrows)]
      show (List.range file.rows.toNat).foldlM _
        (data.set cityNum (folder.set fileCount (List.replicate file.rows.toNat []))) = _
      rw [foldlM_modifyAt (List.getElem?_set_self hcity) (fun i folder =>
          modifyAt folder fileCount fun slot =>
            modifyAt slot i fun frame => .ok (frame ++ rowOf file i)),
        foldlM_modifyAt (List.getElem?_set_self hfile) (fun i slot =>
          modifyAt slot i fun frame => .ok (frame ++ rowOf file i)),
        push_rows file (Nat.le_refl _)]
      simp [Except.map, recordingOf]

/-- One file too many. -/
theorem loadFile_outOfRange (hdata : data[cityNum]? = some folder)
    (hslot : folder.length ≤ fileCount) :
    FileInput.loadFile cityNum fileCount file data = .error .outOfRange := by
  rw [FileInput.loadFile, modifyAt_eq hdata, modifyAt_eq_error hslot]
  rfl

/-! ## Loading a folder -/

/-- What becomes of the files in the slots there are. -/
def loadFolder : List (VoiceFile K) → Nat → Except Fault (List (Recording K))
  | [], room => .ok (List.replicate room [])
  | _ :: _, 0 => .error .outOfRange
  | file :: files, room + 1 =>
      if file.rows < 0 then .error .lengthError
      else (loadFolder files room).map (recordingOf file :: ·)

theorem loadNames_eq [Zero K] (source : CityFolder K) (names : List String) (cityNum : Nat)
    {room : Nat} {done : List (Recording K)} {data : List (List (Recording K))}
    (hdata : data[cityNum]? = some (done ++ List.replicate room [])) :
    (names.zipIdx done.length).foldlM
        (fun data (name, fileCount) =>
          FileInput.loadFile cityNum fileCount (fileOf source name) data) data =
      (loadFolder (names.map (fileOf source)) room).map
        fun rest => data.set cityNum (done ++ rest) := by
  induction names generalizing room done data with
  | nil =>
      obtain ⟨hlt, hget⟩ := List.getElem?_eq_some_iff.mp hdata
      show Except.ok data = .ok (data.set cityNum (done ++ List.replicate room []))
      rw [← hget, List.set_getElem_self]
  | cons name names ih =>
      rw [List.zipIdx_cons, List.foldlM_cons, List.map_cons]
      dsimp only
      cases room with
      | zero =>
          have hfull : (done ++ List.replicate 0 ([] : Recording K)).length ≤ done.length := by
            simp
          rw [loadFolder, loadFile_outOfRange hdata hfull]
          rfl
      | succ room =>
          rw [loadFolder, loadFile_slot hdata (getElem?_blank done room [])]
          split
          · rfl
          · have hcity := (List.getElem?_eq_some_iff.mp hdata).1
            have hlength : (done ++ [recordingOf (fileOf source name)]).length =
                done.length + 1 := by simp
            rw [ok_bind, set_blank, ← hlength, ih (List.getElem?_set_self hcity)]
            cases loadFolder (names.map (fileOf source)) room with
            | error f => rfl
            | ok rest => simp [Except.map]

/-- The names in a folder, as `std::sort` leaves them. -/
def sortedNames (source : CityFolder K) : List String := source.keys.mergeSort (· ≤ ·)

variable [Zero K]

/-- The files in the order in which they are loaded. -/
def filesOf (source : CityFolder K) : List (VoiceFile K) :=
  (sortedNames source).map (fileOf source)

theorem loadCity_eq (source : CityFolder K) {cityNum : Nat} {files : FileInput K}
    (hnames : files.filenames[cityNum]? = some [])
    (hdata : files.data[cityNum]? = some (List.replicate 100 [])) :
    FileInput.loadCity source cityNum files =
      (loadFolder (filesOf source) 100).map fun recordings =>
        { filenames := files.filenames.set cityNum (sortedNames source),
          data := files.data.set cityNum recordings } := by
  have hcity := (List.getElem?_eq_some_iff.mp hnames).1
  have hpush : source.keys.foldlM
      (fun filenames name => modifyAt filenames cityNum fun names => .ok (names ++ [name]))
      files.filenames = .ok (files.filenames.set cityNum source.keys) := by
    rw [foldlM_modifyAt hnames fun name names => .ok (names ++ [name])]
    rw [foldlM_push fun name : String => name]
    simp [Except.map]
  have hsort : modifyAt (files.filenames.set cityNum source.keys) cityNum
      (fun names => .ok (names.mergeSort (· ≤ ·))) =
        .ok (files.filenames.set cityNum (sortedNames source)) := by
    rw [modifyAt_eq (List.getElem?_set_self hcity)]
    simp [Except.map, sortedNames]
  have hslots : files.data[cityNum]? = some ([] ++ List.replicate 100 []) := hdata
  have hload := loadNames_eq source (sortedNames source) cityNum hslots
  rw [FileInput.loadCity, hpush, ok_bind, hsort, ok_bind, index_set_self hcity, ok_bind]
  rw [List.length_nil] at hload
  rw [hload, filesOf]
  cases loadFolder ((sortedNames source).map (fileOf source)) 100 <;> rfl

theorem loadCities_eq (disk : String → CityFolder K) (cities : List String)
    {doneNames : List (List String)} {doneData : List (List (Recording K))}
    (hdone : doneNames.length = doneData.length) :
    (cities.zipIdx doneData.length).foldlM
        (fun files (city, cityNum) => FileInput.loadCity (disk city) cityNum files)
        { filenames := doneNames ++ List.replicate cities.length [],
          data := doneData ++ List.replicate cities.length (List.replicate 100 []) } =
      (cities.mapM fun city => loadFolder (filesOf (disk city)) 100).map fun loaded =>
        { filenames := doneNames ++ cities.map fun city => sortedNames (disk city),
          data := doneData ++ loaded } := by
  induction cities generalizing doneNames doneData with
  | nil => rfl
  | cons city cities ih =>
      rw [List.zipIdx_cons, List.foldlM_cons, List.mapM_cons]
      dsimp only
      have hnames : (doneNames ++ List.replicate (cities.length + 1) [])[doneData.length]? =
          some [] := by
        rw [← hdone]
        exact getElem?_blank doneNames cities.length []
      have hdata := getElem?_blank doneData cities.length (List.replicate 100 [])
      rw [List.length_cons, loadCity_eq (disk city) hnames hdata]
      cases loadFolder (filesOf (disk city)) 100 with
      | error f => rfl
      | ok recordings =>
          have hlength : (doneData ++ [recordings]).length = doneData.length + 1 := by simp
          have hdone' : (doneNames ++ [sortedNames (disk city)]).length =
              (doneData ++ [recordings]).length := by simp [hdone]
          have hset : (doneNames ++ List.replicate (cities.length + 1) []).set doneData.length
              (sortedNames (disk city)) = (doneNames ++ [sortedNames (disk city)]) ++
                List.replicate cities.length [] := by
            rw [← hdone]
            exact set_blank doneNames cities.length [] (sortedNames (disk city))
          show List.foldlM _ _ _ = _
          dsimp only
          rw [hset, set_blank, ← hlength, ih hdone']
          cases cities.mapM fun city => loadFolder (filesOf (disk city)) 100 with
          | error f => rfl
          | ok loaded => simp [Except.map, pure, Except.pure]

theorem getfiledatas_eq (disk : String → CityFolder K) :
    FileInput.getfiledatas disk FileInput.new =
      (FileInput.cities.mapM fun city => loadFolder (filesOf (disk city)) 100).map
        fun data => { filenames := FileInput.cities.map fun city => sortedNames (disk city),
                      data } :=
  @loadCities_eq K _ disk FileInput.cities [] [] rfl

end Loading

/-! ## Folders that fit, and others -/

section Folders

variable {K : Type} {files : List (VoiceFile K)} {room : Nat}

theorem loadFolder_fits (hlength : files.length ≤ room) (hrows : ∀ file ∈ files, 0 ≤ file.rows) :
    loadFolder files room =
      .ok (files.map recordingOf ++ List.replicate (room - files.length) []) := by
  induction files generalizing room with
  | nil => rfl
  | cons file files ih =>
      obtain ⟨room, rfl⟩ : ∃ r, room = r + 1 := ⟨room - 1, by
        rw [List.length_cons] at hlength
        omega⟩
      rw [List.forall_mem_cons] at hrows
      rw [loadFolder, if_neg (not_lt.mpr hrows.1), ih (Nat.le_of_succ_le_succ hlength) hrows.2]
      simp [Except.map]

theorem loadFolder_refused (h : ∃ file ∈ files.take room, file.rows < 0) :
    loadFolder files room = .error .lengthError := by
  induction files generalizing room with
  | nil =>
      obtain ⟨file, hfile, -⟩ := h
      rw [List.take_nil] at hfile
      cases hfile
  | cons first files ih =>
      cases room with
      | zero =>
          obtain ⟨file, hfile, -⟩ := h
          cases hfile
      | succ room =>
          rw [loadFolder]
          split
          · rfl
          · next hfirst =>
              rw [List.take_succ_cons] at h
              rw [ih (((List.exists_mem_cons_iff ..).mp h).resolve_left hfirst)]
              rfl

theorem loadFolder_crowded (hlength : room < files.length)
    (hrows : ∀ file ∈ files.take room, 0 ≤ file.rows) :
    loadFolder files room = .error .outOfRange := by
  induction files generalizing room with
  | nil => exact absurd hlength (Nat.not_lt_zero room)
  | cons file files ih =>
      cases room with
      | zero => rfl
      | succ room =>
          rw [List.take_succ_cons, List.forall_mem_cons] at hrows
          rw [loadFolder, if_neg (not_lt.mpr hrows.1),
            ih (Nat.lt_of_succ_lt_succ hlength) hrows.2]
          rfl

/-- One of the three is what happens to a folder. -/
theorem loadFolder_cases (files : List (VoiceFile K)) (room : Nat) :
    (files.length ≤ room ∧ ∀ file ∈ files, 0 ≤ file.rows) ∨
      (∃ file ∈ files.take room, file.rows < 0) ∨
      (room < files.length ∧ ∀ file ∈ files.take room, 0 ≤ file.rows) := by
  by_cases hneg : ∃ file ∈ files.take room, file.rows < 0
  · exact Or.inr (Or.inl hneg)
  · have hrows : ∀ file ∈ files.take room, 0 ≤ file.rows := fun file hfile =>
      not_lt.mp fun h => hneg ⟨file, hfile, h⟩
    rcases Nat.lt_or_ge room files.length with hlt | hle
    · exact Or.inr (Or.inr ⟨hlt, hrows⟩)
    · rw [List.take_of_length_le hle] at hrows
      exact Or.inl ⟨hle, hrows⟩

theorem fits_of_loadFolder {recordings : List (Recording K)}
    (h : loadFolder files room = .ok recordings) :
    (files.length ≤ room ∧ ∀ file ∈ files, 0 ≤ file.rows) ∧
      recordings = files.map recordingOf ++ List.replicate (room - files.length) [] := by
  rcases loadFolder_cases files room with hfits | hrefused | ⟨hlength, hrows⟩
  · rw [loadFolder_fits hfits.1 hfits.2] at h
    exact ⟨hfits, (Except.ok.inj h).symm⟩
  · cases (loadFolder_refused hrefused).symm.trans h
  · cases (loadFolder_crowded hlength hrows).symm.trans h

theorem refused_of_loadFolder (h : loadFolder files room = .error .lengthError) :
    ∃ file ∈ files.take room, file.rows < 0 := by
  rcases loadFolder_cases files room with ⟨hlength, hrows⟩ | hrefused | ⟨hlength, hrows⟩
  · cases (loadFolder_fits hlength hrows).symm.trans h
  · exact hrefused
  · cases (loadFolder_crowded hlength hrows).symm.trans h

theorem length_recordingOf (file : VoiceFile K) :
    (recordingOf file).length = file.rows.toNat := by
  simp [recordingOf]

theorem length_of_mem_recordingOf {file : VoiceFile K} {frame : Frame K}
    (h : frame ∈ recordingOf file) : frame.length = FileInput.dimension := by
  obtain ⟨i, -, rfl⟩ := List.mem_map.mp h
  simp [rowOf]

/-- A slot is blank where there is no file for it, or no row in the file. -/
theorem blank_slot_iff :
    ([] : Recording K) ∈ files.map recordingOf ++ List.replicate (room - files.length) [] ↔
      files.length < room ∨ ∃ file ∈ files, file.rows ≤ 0 := by
  have hblank : ∀ file : VoiceFile K, recordingOf file = [] ↔ file.rows ≤ 0 := by
    intro file
    rw [← List.length_eq_zero_iff, length_recordingOf, Int.toNat_eq_zero]
  simp [List.mem_replicate, hblank, Nat.sub_eq_zero_iff_le, or_comm]

/-- The files of a city have a slot each, and every slot has a file with a row. -/
structure Complete [Zero K] (source : CityFolder K) : Prop where
  count : (filesOf source).length = 100
  rows : ∀ file ∈ filesOf source, 1 ≤ file.rows

/-- No more files than slots, and no negative row count. -/
structure Loads [Zero K] (source : CityFolder K) : Prop where
  count : (filesOf source).length ≤ 100
  rows : ∀ file ∈ filesOf source, 0 ≤ file.rows

/-- A negative row count, in a file that there is a slot for. -/
def Refused [Zero K] (source : CityFolder K) : Prop :=
  ∃ file ∈ (filesOf source).take 100, file.rows < 0

/-- The cities load up to one with a negative row count, which ends the
program. -/
def Throws [Zero K] (disk : String → CityFolder K) : Prop :=
  ∃ before city after, FileInput.cities = before ++ city :: after ∧
    (∀ earlier ∈ before, Loads (disk earlier)) ∧ Refused (disk city)

end Folders

/-! ## What was loaded -/

section Furnished

variable {K : Type} {files : FileInput K} {i k : Nat}

/-- The frames are those of a file: 15 coefficients each. -/
def Framed (recording : Recording K) : Prop :=
  ∀ frame ∈ recording, frame.length = FileInput.dimension

/-- Four folders of 100 recordings. -/
structure Furnished (files : FileInput K) : Prop where
  folders : files.data.length = 4
  slots : ∀ folder ∈ files.data, folder.length = 100
  frames : ∀ folder ∈ files.data, ∀ recording ∈ folder, Framed recording

theorem Furnished.folder (h : Furnished files) (hi : i < 4) :
    ∃ folder, files.data[i]? = some folder ∧ folder ∈ files.data ∧ folder.length = 100 := by
  have hlt : i < files.data.length := h.folders.symm ▸ hi
  have hmem := List.getElem_mem hlt
  exact ⟨_, List.getElem?_eq_getElem hlt, hmem, h.slots _ hmem⟩

theorem Furnished.recording (h : Furnished files) (hi : i < 4) (hk : k < 100) :
    ∃ folder recording, files.data[i]? = some folder ∧ folder ∈ files.data ∧
      folder[k]? = some recording ∧ recording ∈ folder := by
  obtain ⟨folder, hfolder, hmem, hlength⟩ := h.folder hi
  have hlt : k < folder.length := hlength.symm ▸ hk
  exact ⟨folder, folder[k], hfolder, hmem, List.getElem?_eq_getElem hlt, List.getElem_mem hlt⟩

/-- The slots of a folder that loads: what was read, and what is left blank. -/
def slotsOf [Zero K] (source : CityFolder K) : List (Recording K) :=
  (filesOf source).map recordingOf ++ List.replicate (100 - (filesOf source).length) []

theorem slotsOf_of_mapM [Zero K] {disk : String → CityFolder K}
    {data : List (List (Recording K))}
    (h : FileInput.cities.mapM (fun city => loadFolder (filesOf (disk city)) 100) = .ok data) :
    (∀ city ∈ FileInput.cities, Loads (disk city)) ∧
      data = FileInput.cities.map fun city => slotsOf (disk city) := by
  have hloads : ∀ city ∈ FileInput.cities,
      Loads (disk city) ∧ loadFolder (filesOf (disk city)) 100 = .ok (slotsOf (disk city)) := by
    intro city hcity
    obtain ⟨recordings, hload⟩ := exists_of_mapM_eq_ok h city hcity
    obtain ⟨⟨hlength, hrows⟩, rfl⟩ := fits_of_loadFolder hload
    exact ⟨⟨hlength, hrows⟩, hload⟩
  refine ⟨fun city hcity => (hloads city hcity).1, ?_⟩
  rw [mapM_eq_ok fun city hcity => (hloads city hcity).2] at h
  exact (Except.ok.inj h).symm

theorem length_slotsOf [Zero K] {source : CityFolder K} (h : Loads source) :
    (slotsOf source).length = 100 := by
  have hcount := h.count
  simp only [slotsOf, List.length_append, List.length_map, List.length_replicate]
  omega

theorem framed_slotsOf [Zero K] (source : CityFolder K) :
    ∀ recording ∈ slotsOf source, Framed recording := by
  intro recording hrec
  rcases List.mem_append.mp hrec with hfile | hblank
  · obtain ⟨file, -, rfl⟩ := List.mem_map.mp hfile
    exact fun frame => length_of_mem_recordingOf
  · rw [List.eq_of_mem_replicate hblank]
    exact fun frame hframe => absurd hframe List.not_mem_nil

/-- What the loading leaves. -/
theorem furnished_slotsOf [Zero K] {disk : String → CityFolder K}
    (h : ∀ city ∈ FileInput.cities, Loads (disk city))
    (hdata : files.data = FileInput.cities.map fun city => slotsOf (disk city)) :
    Furnished files := by
  refine ⟨by rw [hdata]; rfl, ?_, ?_⟩
  · rw [hdata, List.forall_mem_map]
    exact fun city hcity => length_slotsOf (h city hcity)
  · rw [hdata, List.forall_mem_map]
    exact fun city _ => framed_slotsOf (disk city)

/-- A city with no blank slot is complete. -/
theorem Loads.complete_iff [Zero K] {source : CityFolder K} (h : Loads source) :
    [] ∉ slotsOf source ↔ Complete source := by
  rw [slotsOf, blank_slot_iff, not_or]
  refine ⟨fun ⟨hcount, hrows⟩ => ⟨le_antisymm h.count (not_lt.mp hcount), ?_⟩, fun hc => ?_⟩
  · intro file hfile
    exact not_le.mp fun hle => hrows ⟨file, hfile, hle⟩
  · refine ⟨hc.count.not_lt, fun ⟨file, hfile, hle⟩ => ?_⟩
    exact absurd (hc.rows file hfile) (not_le.mpr (Int.lt_add_one_iff.mpr hle))

theorem Complete.loads [Zero K] {source : CityFolder K} (h : Complete source) :
    Loads source where
  count := h.count.le
  rows := fun file hfile => le_trans zero_le_one (h.rows file hfile)

theorem throws_iff [Zero K] (disk : String → CityFolder K) : Throws disk ↔
    FileInput.cities.mapM (fun city => loadFolder (filesOf (disk city)) 100) =
      .error .lengthError := by
  refine ⟨?_, fun h => ?_⟩
  · intro ⟨before, city, after, hcities, hbefore, hrefused⟩
    refine mapM_eq_error_iff.mpr
      ⟨before, city, after, hcities, fun earlier hmem => ?_, loadFolder_refused hrefused⟩
    have hloads := hbefore earlier hmem
    exact ⟨_, loadFolder_fits hloads.count hloads.rows⟩
  · obtain ⟨before, city, after, hcities, hbefore, hstop⟩ := mapM_eq_error_iff.mp h
    refine ⟨before, city, after, hcities, fun earlier hmem => ?_, refused_of_loadFolder hstop⟩
    obtain ⟨recordings, hload⟩ := hbefore earlier hmem
    obtain ⟨⟨hcount, hrows⟩, -⟩ := fits_of_loadFolder hload
    exact ⟨hcount, hrows⟩

end Furnished

end Playspace.Ninshiki
