import DotMatrix.Proofs.Storage.Accepts
import DotMatrix.Proofs.Storage.Names

/-!
# Where save files lie

The two save files of an image lie beside each other under the same name, and their extensions
differ, unless the path of the image names no file. So if their paths differ at all, they lead to
different locations, whatever the folders on the way are called (`target_saveLocation_ne`).
-/

namespace DotMatrix

namespace Path

/-! ## Names that differ in the extension -/

/-- A path either has nowhere to put an extension, or it always goes behind the same stem. -/
theorem withExtension_cases (path : String) :
    (∃ fixed, ∀ extension, withExtension path extension = fixed) ∨
      ∃ folder stem, (∀ s ∈ folder, '/' ∉ s) ∧ '/' ∉ stem ∧
        ∀ extension, withExtension path extension = beside folder stem extension := by
  -- what is cut off at the end does not depend on the new extension
  have hcut : ∃ cut, ∀ extension,
      withExtension path extension = String.ofList (setExtension cut extension.toList) :=
    ⟨_, fun _ => rfl⟩
  obtain ⟨cut, hcut⟩ := hcut
  cases hsplit : splitName? cut with
  | none =>
    refine .inl ⟨String.ofList cut, fun extension => ?_⟩
    rw [hcut, setExtension, hsplit]
  | some split =>
    obtain ⟨folder, name⟩ := split
    obtain ⟨hfolder, hname⟩ := slash_not_mem_of_splitName? hsplit
    refine .inr ⟨folder, (splitExtension name).1, hfolder,
      fun hmem => hname (mem_of_mem_splitExtension hmem), fun extension => ?_⟩
    rw [hcut, setExtension, hsplit]
    rfl

end Path

namespace Storage

section Beside

variable {folder : List (List Char)} {stem : List Char} (hfolder : ∀ s ∈ folder, '/' ∉ s)
  (hstem : '/' ∉ stem)
include hfolder hstem

/-- With the extension of a save file, any stem makes a name. -/
theorem names_beside (kind : SaveKind) :
    Path.Names (Path.beside folder stem kind.extension).toList folder
      (stem ++ '.' :: kind.extension.toList) := by
  have hlong : 4 ≤ (stem ++ '.' :: kind.extension.toList).length := by
    rw [List.length_append]
    cases kind <;> simp [SaveKind.extension]
  have hne : ∀ short : List Char, short.length < 4 →
      stem ++ '.' :: kind.extension.toList ≠ short := by
    rintro short hshort rfl
    exact absurd hlong (Nat.not_le.2 hshort)
  refine ⟨String.toList_ofList, hfolder, ?_, hne _ (by decide), hne _ (by decide),
    hne _ (by decide)⟩
  have hextension : '/' ∉ '.' :: kind.extension.toList := by cases kind <;> decide
  rw [List.mem_append, not_or]
  exact ⟨hstem, hextension⟩

theorem follow_beside (here : Location) (kind : SaveKind) :
    follow here (Path.beside folder stem kind.extension) =
      lead here folder ++ [String.ofList (stem ++ '.' :: kind.extension.toList)] :=
  follow_of_names (names_beside hfolder hstem kind) here

/-- Where a path starts does not depend on the extension. -/
theorem start_beside (home : Location) (kind kind' : SaveKind) :
    start home (Path.beside folder stem kind.extension) =
      start home (Path.beside folder stem kind'.extension) :=
  start_of_names (names_beside hfolder hstem kind) (names_beside hfolder hstem kind') home

end Beside

/-- Save files with different paths are at different locations. -/
theorem target_saveLocation_ne (s : Storage) {saveFolder : Option String} {image : String}
    (h : saveLocation saveFolder image .ram ≠ saveLocation saveFolder image .clock) :
    s.target (saveLocation saveFolder image .ram) ≠
      s.target (saveLocation saveFolder image .clock) := by
  have hbase : ∃ base, ∀ kind : SaveKind,
      saveLocation saveFolder image kind = Path.withExtension base kind.extension := by
    unfold saveLocation
    split
    · exact ⟨_, fun _ => rfl⟩
    · exact ⟨_, fun _ => rfl⟩
  obtain ⟨base, hbase⟩ := hbase
  rw [hbase, hbase] at h ⊢
  rcases Path.withExtension_cases base with
    ⟨fixed, hfixed⟩ | ⟨folder, stem, hfolder, hstem, hbeside⟩
  · rw [hfixed, hfixed] at h
    exact absurd rfl h
  · rw [hbeside, hbeside] at h ⊢
    unfold target
    split
    · exact fun heq => h (List.cons.inj heq).1
    · rw [start_beside hfolder hstem _ .clock .ram, follow_beside hfolder hstem,
        follow_beside hfolder hstem]
      intro heq
      have hnames := List.cons.inj (List.append_cancel_left heq)
      have hchars := congrArg String.toList hnames.1
      rw [String.toList_ofList, String.toList_ofList] at hchars
      exact absurd (List.append_cancel_left hchars) (by decide)

/-! ## Where the save files of an image go -/

/-- The folder that save files go to. -/
def saveTarget (s : Storage) (saveFolder : Option String) (image : String) : Location :=
  match saveFolder with
  | none => (s.target image).dropLast
  | some folder => s.target folder

/-- The image itself is where a save file of this kind would go. -/
structure Overlays (s : Storage) (saveFolder : Option String) (image : String) (kind : SaveKind) :
    Prop where
  extension : Path.extension? image = some kind.extension
  stem : Path.stem? image ≠ some "."
  folder : s.saveTarget saveFolder image = (s.target image).dropLast

theorem overlays_of_medium {s s' : Storage} (h : s'.medium = s.medium) {saveFolder : Option String}
    {image : String} {kind : SaveKind} (hoverlays : s'.Overlays saveFolder image kind) :
    s.Overlays saveFolder image kind := by
  refine ⟨hoverlays.extension, hoverlays.stem, ?_⟩
  have hfolder := hoverlays.folder
  unfold saveTarget at *
  rw [target_of_medium h] at hfolder
  cases saveFolder with
  | none => rfl
  | some folder => exact (target_of_medium h folder).symm.trans hfolder

section Tree

variable {s : Storage} {home : Location} (hmedium : s.medium = .tree home) {image : String}
  {folder : List (List Char)} {name : List Char} (h : Path.Names image.toList folder name)

include hmedium in
theorem target_tree (path : String) : s.target path = follow (start home path) path := by
  unfold target
  rw [hmedium]

include hmedium h

theorem target_of_names :
    s.target image = lead (start home image) folder ++ [String.ofList name] := by
  rw [target_tree hmedium, follow_of_names h]

/-- Save files get their extensions on a path that has the name of the image. -/
theorem exists_names_saveLocation (saveFolder : Option String) :
    ∃ base segments, Path.Names base.toList segments name ∧
      lead (start home base) segments = s.saveTarget saveFolder image ∧
      ∀ kind, saveLocation saveFolder image kind = Path.withExtension base kind.extension := by
  cases saveFolder with
  | none =>
    refine ⟨image, folder, h, ?_, fun _ => rfl⟩
    unfold saveTarget
    rw [target_of_names hmedium h, List.dropLast_concat]
  | some saveFolder =>
    obtain ⟨segments, hnames, hlead⟩ := names_join h saveFolder
    refine ⟨_, segments, hnames, ?_, fun kind => ?_⟩
    · rw [hlead]
      exact (target_tree hmedium saveFolder).symm
    · unfold saveLocation
      rw [h.fileName?_eq]

section Stem

variable (hstem : Path.stem? image ≠ some ".") (saveFolder : Option String)
include hstem

theorem target_saveLocation (kind : SaveKind) :
    s.target (saveLocation saveFolder image kind) =
      s.saveTarget saveFolder image ++
        [String.ofList ((Path.splitExtension name).1 ++ '.' :: kind.extension.toList)] := by
  obtain ⟨base, segments, hnames, hlead, hlocation⟩ :=
    exists_names_saveLocation hmedium h saveFolder
  have hslash : '/' ∉ (Path.splitExtension name).1 := fun hmem =>
    h.slash (Path.mem_of_mem_splitExtension hmem)
  rw [hlocation, Path.withExtension_eq hnames (mt h.stem?_eq_dot_iff.2 hstem),
    target_tree hmedium, start_of_names (names_beside hnames.folder hslash kind) hnames,
    follow_beside hnames.folder hslash, hlead]

/-- The two save files of an image go to different places. -/
theorem target_ram_ne_target_clock :
    s.target (saveLocation saveFolder image .ram) ≠
      s.target (saveLocation saveFolder image .clock) := by
  rw [target_saveLocation hmedium h hstem, target_saveLocation hmedium h hstem]
  intro heq
  have hname := String.ofList_injective (List.singleton_inj.1 (List.append_cancel_left heq))
  exact absurd (List.append_cancel_left hname) (by decide)

/-- A save file goes where the image is exactly if the image has its extension and is in the
folder for save files. -/
theorem target_saveLocation_eq_iff (kind : SaveKind) :
    s.target (saveLocation saveFolder image kind) = s.target image ↔
      s.Overlays saveFolder image kind := by
  have htarget := target_of_names hmedium h
  have hfolder : (s.target image).dropLast = lead (start home image) folder := by
    rw [htarget, List.dropLast_concat]
  rw [target_saveLocation hmedium h hstem, htarget]
  constructor
  · intro heq
    obtain ⟨hsaves, hname⟩ := List.append_inj' heq rfl
    exact ⟨h.extension?_eq_some_iff.2 (String.ofList_injective (List.singleton_inj.1 hname)), hstem,
      hsaves.trans hfolder.symm⟩
  · intro hoverlays
    rw [h.extension?_eq_some_iff.1 hoverlays.extension, hoverlays.folder, hfolder]

end Stem

omit hmedium in
/-- Without a save folder, an image that is overlaid has the very path of the save file. -/
theorem saveLocation_of_overlays {kind : SaveKind} (hoverlays : s.Overlays none image kind) :
    saveLocation none image kind = image := by
  show Path.withExtension image kind.extension = image
  rw [Path.withExtension_eq h (mt h.stem?_eq_dot_iff.2 hoverlays.stem), Path.beside,
    h.extension?_eq_some_iff.1 hoverlays.extension, ← h.path, String.ofList_toList]

/-- With a dot for a stem there is no place for save files: what is left when the extension is cut
off ends in two dots, and gets no new extension. -/
theorem saveLocation_of_dot (hstem : Path.stem? image = some ".") (saveFolder : Option String) :
    saveLocation saveFolder image .ram = saveLocation saveFolder image .clock ∧
      ∀ (kind : SaveKind) (s' : Storage) (bytes : ByteArray), s'.medium = .tree home →
        (s'.save (saveLocation saveFolder image kind) bytes).1 ≠ .ok () := by
  obtain ⟨base, segments', hnames, -, hlocation⟩ := exists_names_saveLocation hmedium h saveFolder
  have hdots : ∀ kind, saveLocation saveFolder image kind =
      String.ofList (Path.unsplit (segments' ++ [['.', '.']])) := fun kind => by
    rw [hlocation, Path.withExtension_of_dot hnames (h.stem?_eq_dot_iff.1 hstem)]
  refine ⟨by rw [hdots, hdots], fun kind s' bytes hmedium' hok => ?_⟩
  obtain ⟨made, hmade, hplace, -⟩ := save_ok hok
  unfold place at hplace
  rw [hmade.extends.medium, hmedium'] at hplace
  -- the last segment would have to be a name
  obtain ⟨⟨front, last, hsegments, -, hlast⟩, -⟩ := findPlace_ok_iff.1 hplace
  rw [hdots, segments, String.toList_ofList,
    Path.split_unsplit_concat hnames.folder (by decide), List.filter_append, List.map_append]
    at hsegments
  exact hlast (List.singleton_inj.1 (List.append_inj' hsegments rfl).2).symm

/-- A save that is accepted goes somewhere else than where the image is, unless it overlays it. -/
theorem target_ne_of_accepted {saveFolder : Option String} {kind : SaveKind} {bytes : ByteArray}
    (hspared : ¬s.Overlays saveFolder image kind)
    (hok : (s.save (saveLocation saveFolder image kind) bytes).1 = .ok ()) :
    s.target (saveLocation saveFolder image kind) ≠ s.target image := by
  by_cases hstem : Path.stem? image = some "."
  · exact absurd hok ((saveLocation_of_dot hmedium h hstem saveFolder).2 kind s bytes hmedium)
  · exact mt (target_saveLocation_eq_iff hmedium h hstem saveFolder kind).1 hspared

end Tree

/-! ## Files that are left alone -/

/-- A later storage in which nothing was saved where the path leads to. -/
structure Untouched (before s : Storage) (path : String) : Prop where
  medium : s.medium = before.medium
  contents : s.contents path = before.contents path
  saves : ∃ saved, s.journal = saved ++ before.journal ∧
    ∀ entry ∈ saved, before.target entry.1 ≠ before.target path

theorem Untouched.refl (s : Storage) (path : String) : s.Untouched s path :=
  ⟨rfl, rfl, [], rfl, by simp⟩

/-- An image stays untouched by a save file that does not overlay it. -/
theorem Untouched.save {before s : Storage} {home : Location} {image : String}
    (h : before.Untouched s image) (hmedium : before.medium = .tree home)
    {folder : List (List Char)} {name : List Char} (hnames : Path.Names image.toList folder name)
    {saveFolder : Option String} {kind : SaveKind}
    (hspared : ¬before.Overlays saveFolder image kind) (bytes : ByteArray) :
    before.Untouched (s.save (saveLocation saveFolder image kind) bytes).2 image := by
  have hspared' : ¬s.Overlays saveFolder image kind := mt (overlays_of_medium h.medium) hspared
  obtain ⟨saved, hjournal, htargets⟩ := h.saves
  by_cases hok : (s.save (saveLocation saveFolder image kind) bytes).1 = .ok ()
  · have hne := target_ne_of_accepted (h.medium.trans hmedium) hnames hspared' hok
    refine ⟨(s.medium_save _ bytes).trans h.medium,
      (contents_save_of_ne hne.symm bytes).trans h.contents, ?_⟩
    rcases s.journal_save (saveLocation saveFolder image kind) bytes with hsame | hmore
    · exact ⟨saved, hsame.trans hjournal, htargets⟩
    · refine ⟨_ :: saved, by rw [hmore, hjournal, List.cons_append], ?_⟩
      rw [List.forall_mem_cons]
      refine ⟨?_, htargets⟩
      rw [← target_of_medium h.medium, ← target_of_medium h.medium image]
      exact hne
  · refine ⟨(s.medium_save _ bytes).trans h.medium,
      (contents_of_refused hok image).trans h.contents, saved, ?_, htargets⟩
    rw [journal_of_refused hok, hjournal]

end Storage

end DotMatrix
