import DotMatrix.Storage

/-!
# Saving into a tree

A path of a tree that can be found leads to one location, whatever the tree holds
(`follow_of_find`). What can be found stays to be found when folders are made and files are put
(`Extends`), and a file that was written can be found where it was put.
-/

namespace DotMatrix.Storage

/-- What a sequence of work that succeeded consists of. -/
theorem bind_ok {ε α β : Type} {x : Except ε α} {f : α → Except ε β} {b : β}
    (h : x >>= f = .ok b) : ∃ a, x = .ok a ∧ f a = .ok b := by
  cases x with
  | error e => cases h
  | ok a => exact ⟨a, rfl, h⟩

/-! ## Where a path leads -/

theorem step_ok {s : Storage} {here loc : Location} {segment : String}
    (h : s.step here segment = .ok loc) :
    s.checkFolder here = .ok () ∧ ¬ maxNameSize < segment.utf8ByteSize ∧
      loc = here.enter segment := by
  obtain ⟨⟨⟩, hfolder, hrest⟩ := bind_ok h
  by_cases hlong : maxNameSize < segment.utf8ByteSize
  · rw [if_pos hlong] at hrest
    cases hrest
  · rw [if_neg hlong] at hrest
    exact ⟨hfolder, hlong, (Except.ok.inj hrest).symm⟩

theorem step_of_checkFolder {s : Storage} {here : Location} {segment : String}
    (hfolder : s.checkFolder here = .ok ()) (hshort : ¬ maxNameSize < segment.utf8ByteSize) :
    s.step here segment = .ok (here.enter segment) := by
  unfold step
  rw [hfolder, if_neg hshort]
  rfl

theorem foldl_of_foldlM_step {s : Storage} {segments : List String} {here loc : Location}
    (h : segments.foldlM s.step here = .ok loc) : loc = segments.foldl Location.enter here := by
  -- one segment after another, from wherever the ones before have led
  induction segments generalizing here with
  | nil => exact (Except.ok.inj h).symm
  | cons segment rest ih =>
    rw [List.foldlM_cons] at h
    obtain ⟨next, hstep, hrest⟩ := bind_ok h
    obtain ⟨-, -, rfl⟩ := step_ok hstep
    exact ih hrest

/-- Finding a path succeeds if the way is free, and asks for a folder at the end if the path
does. -/
theorem find_ok_iff {s : Storage} {home : Location} {path : String} {loc : Location} :
    s.find home path = .ok loc ↔
      checkPath path = .ok () ∧ (segments path).foldlM s.step (start home path) = .ok loc ∧
        (endsInSlash path = true → s.checkFolder loc = .ok ()) := by
  unfold find
  -- the checks in the order in which they are made
  cases hpath : checkPath path with
  | error e => exact ⟨fun h => (by cases h), fun h => (by cases h.1)⟩
  | ok u =>
    cases hway : (segments path).foldlM s.step (start home path) with
    | error e => exact ⟨fun h => (by cases h), fun h => (by cases h.2.1)⟩
    | ok loc' =>
      cases hslash : endsInSlash path with
      | false =>
        refine ⟨fun h => ⟨rfl, h, fun hcontra => (by cases hcontra)⟩, fun h => h.2.1⟩
      | true =>
        cases hfolder : s.checkFolder loc' with
        | error e =>
          refine ⟨fun h => ?_, fun h => ?_⟩
          · simp [hfolder, bind, Except.bind] at h
          · rw [← Except.ok.inj h.2.1, hfolder] at h
            cases h.2.2 rfl
        | ok u =>
          refine ⟨fun h => ?_, fun h => ?_⟩
          · simp only [if_true, hfolder, bind, Except.bind] at h
            exact ⟨rfl, h, fun _ => Except.ok.inj h ▸ hfolder⟩
          · simp only [if_true, hfolder, bind, Except.bind]
            exact h.2.1

/-- A path that can be found leads to where it would lead if everything on the way were a
folder. -/
theorem follow_of_find {s : Storage} {home : Location} {path : String} {loc : Location}
    (h : s.find home path = .ok loc) : loc = follow (start home path) path :=
  foldl_of_foldlM_step (find_ok_iff.1 h).2.1

/-- The last segment is a step like those before it. -/
theorem foldlM_step_concat {s : Storage} {front : List String} {name : String}
    {here loc : Location} :
    (front ++ [name]).foldlM s.step here = .ok loc ↔
      ∃ folder, front.foldlM s.step here = .ok folder ∧ s.step folder name = .ok loc := by
  rw [List.foldlM_append]
  constructor
  · intro h
    obtain ⟨folder, hfront, hlast⟩ := bind_ok h
    rw [List.foldlM_cons] at hlast
    obtain ⟨loc', hstep, hnil⟩ := bind_ok hlast
    obtain rfl : loc' = loc := Except.ok.inj hnil
    exact ⟨folder, hfront, hstep⟩
  · rintro ⟨folder, hfront, hstep⟩
    rw [hfront]
    show List.foldlM s.step folder [name] = _
    rw [List.foldlM_cons, hstep]
    rfl

theorem findFolder_of_way {s : Storage} {home : Location} {path : String} {front : List String}
    {name : String} {folder : Location} (hpath : checkPath path = .ok ())
    (hsegments : segments path = front ++ [name])
    (hfront : front.foldlM s.step (start home path) = .ok folder)
    (hfolder : s.checkFolder folder = .ok ()) :
    s.findFolder home path =
      .ok (folder, (some name).filter fun name => name ≠ "." && name ≠ "..") := by
  unfold findFolder
  simp only [hpath, hsegments, List.dropLast_concat, List.getLast?_concat, hfront, hfolder, bind,
    Except.bind]
  rfl

/-- There is a place for a file at a path exactly if the path can be found and ends in a name
where no folder is. -/
theorem findPlace_ok_iff {s : Storage} {home : Location} {path : String} {loc : Location} :
    s.findPlace home path = .ok loc ↔
      (∃ front name, segments path = front ++ [name] ∧ name ≠ "." ∧ name ≠ "..") ∧
        endsInSlash path = false ∧ s.find home path = .ok loc ∧ s.isFolder loc = false := by
  constructor
  · intro h
    obtain ⟨⟨folder, name⟩, hfolder, hplace⟩ := bind_ok h
    obtain ⟨⟨⟩, hpath, hfolder⟩ := bind_ok hfolder
    obtain ⟨folder', hway, hfolder⟩ := bind_ok hfolder
    obtain ⟨⟨⟩, -, hfolder⟩ := bind_ok hfolder
    obtain ⟨rfl, hname⟩ := Prod.mk.inj (Except.ok.inj hfolder)
    cases name with
    | none => cases hplace
    | some name =>
      dsimp only at hplace
      obtain ⟨hlast, hproper⟩ := Option.filter_eq_some_iff.1 hname
      obtain ⟨front, hsegments⟩ := List.getLast?_eq_some_iff.1 hlast
      rw [hsegments, List.dropLast_concat] at hway
      cases hslash : endsInSlash path with
      | true =>
        rw [hslash] at hplace
        cases hplace
      | false =>
        rw [hslash, if_neg (by simp)] at hplace
        obtain ⟨loc', hstep, hplace⟩ := bind_ok hplace
        cases hisFolder : s.isFolder loc' with
        | true =>
          rw [hisFolder] at hplace
          cases hplace
        | false =>
          rw [hisFolder] at hplace
          obtain rfl : loc' = loc := Except.ok.inj hplace
          refine ⟨⟨front, name, hsegments, by simpa using hproper⟩, rfl, ?_, hisFolder⟩
          -- the place is one step further than the folder, so the whole way is free
          refine find_ok_iff.2 ⟨hpath, ?_, fun hcontra => ?_⟩
          · rw [hsegments]
            exact foldlM_step_concat.2 ⟨folder', hway, hstep⟩
          · rw [hslash] at hcontra
            cases hcontra
  · rintro ⟨⟨front, name, hsegments, hname⟩, hslash, hfind, hisFolder⟩
    obtain ⟨hpath, hway, -⟩ := find_ok_iff.1 hfind
    rw [hsegments] at hway
    obtain ⟨folder, hfront, hstep⟩ := foldlM_step_concat.1 hway
    have hname' : (some name).filter (fun name => name ≠ "." && name ≠ "..") = some name :=
      Option.filter_eq_some_iff.2 ⟨rfl, by simpa using hname⟩
    unfold findPlace
    rw [findFolder_of_way hpath hsegments hfront (step_ok hstep).1, hname', hslash]
    simp only [bind, Except.bind, hstep, hisFolder]
    rfl

theorem find_of_findPlace {s : Storage} {home : Location} {path : String} {loc : Location}
    (h : s.findPlace home path = .ok loc) :
    s.find home path = .ok loc ∧ s.isFolder loc = false :=
  (findPlace_ok_iff.1 h).2.2

/-! ## What stays to be found -/

theorem checkFolder_ok_iff {s : Storage} {loc : Location} :
    s.checkFolder loc = .ok () ↔ s.fileAt? loc = none ∧ s.isFolder loc = true := by
  unfold checkFolder
  cases s.fileAt? loc <;> cases s.isFolder loc <;> simp

/-- What was a folder is one in the later storage. -/
structure Extends (s s' : Storage) : Prop where
  medium : s'.medium = s.medium
  folder : ∀ loc, s.checkFolder loc = .ok () → s'.checkFolder loc = .ok ()

theorem Extends.trans {a b c : Storage} (hab : a.Extends b) (hbc : b.Extends c) : a.Extends c :=
  ⟨hbc.medium.trans hab.medium, fun loc h => hbc.folder loc (hab.folder loc h)⟩

theorem Extends.foldlM_step {s s' : Storage} (h : s.Extends s') {segments : List String}
    {here loc : Location} (hway : segments.foldlM s.step here = .ok loc) :
    segments.foldlM s'.step here = .ok loc := by
  induction segments generalizing here with
  | nil => exact hway
  | cons segment rest ih =>
    rw [List.foldlM_cons] at hway ⊢
    obtain ⟨next, hstep, hrest⟩ := bind_ok hway
    obtain ⟨hfolder, hshort, rfl⟩ := step_ok hstep
    rw [step_of_checkFolder (h.folder _ hfolder) hshort]
    exact ih hrest

theorem Extends.find {s s' : Storage} (h : s.Extends s') {home : Location} {path : String}
    {loc : Location} (hfind : s.find home path = .ok loc) : s'.find home path = .ok loc := by
  obtain ⟨hpath, hway, hfolder⟩ := find_ok_iff.1 hfind
  exact find_ok_iff.2 ⟨hpath, h.foldlM_step hway, fun hslash => h.folder _ (hfolder hslash)⟩

theorem lookup_filter_ne {files : List (Location × ByteArray)} {loc other : Location}
    (h : other ≠ loc) : (files.filter (·.1 ≠ loc)).lookup other = files.lookup other := by
  induction files with
  | nil => rfl
  | cons entry rest ih =>
    obtain ⟨file, bytes⟩ := entry
    by_cases hfile : file = loc
    · subst hfile
      have hbeq : (other == file) = false := by simpa using h
      rw [List.filter_cons_of_neg (by simp), ih, List.lookup_cons, hbeq]
    · rw [List.filter_cons_of_pos (by simpa using hfile), List.lookup_cons, List.lookup_cons, ih]

theorem fileAt?_put (s : Storage) (loc other : Location) (bytes : ByteArray) :
    (s.put loc bytes).fileAt? other = if other = loc then some bytes else s.fileAt? other := by
  unfold put fileAt?
  by_cases h : other = loc
  · rw [if_pos h, h]
    exact List.lookup_cons_self
  · have hbeq : (other == loc) = false := by simpa using h
    rw [if_neg h, List.lookup_cons, hbeq]
    exact lookup_filter_ne h

theorem isFolder_put {s : Storage} {loc folder : Location} (bytes : ByteArray)
    (h : s.isFolder folder = true) : (s.put loc bytes).isFolder folder = true := by
  unfold isFolder put at *
  simp only [Bool.or_eq_true, List.any_eq_true] at *
  rcases h with hmade | ⟨⟨file, content⟩, hmem, hinside⟩
  · exact .inl hmade
  · right
    by_cases hfile : file = loc
    · -- the file that made the folder is replaced by one at the same location
      subst hfile
      exact ⟨(file, bytes), List.mem_cons_self, hinside⟩
    · have hkept : (file, content) ∈ s.files.filter (·.1 ≠ loc) :=
        List.mem_filter.2 ⟨hmem, by simpa using hfile⟩
      exact ⟨(file, content), List.mem_cons_of_mem _ hkept, hinside⟩

/-- A file that is put where no folder is does not get in the way. -/
theorem extends_put {s : Storage} {loc : Location} (h : s.isFolder loc = false)
    (bytes : ByteArray) : s.Extends (s.put loc bytes) := by
  refine ⟨rfl, fun folder hfolder => ?_⟩
  obtain ⟨hnone, hfolder⟩ := checkFolder_ok_iff.1 hfolder
  -- no folder is shadowed by the new file
  have hne : folder ≠ loc := by
    rintro rfl
    rw [h] at hfolder
    cases hfolder
  rw [checkFolder_ok_iff, fileAt?_put, if_neg hne]
  exact ⟨hnone, isFolder_put bytes hfolder⟩

/-! ## Making folders -/

/-- A folder that is there is not made again. -/
theorem makeFolder_of_find {s : Storage} {home : Location} {path : String} {loc : Location}
    (hfind : s.find home path = .ok loc) (hfolder : s.checkFolder loc = .ok ()) :
    s.makeFolder home path = .ok s := by
  obtain ⟨hpath, hway, -⟩ := find_ok_iff.1 hfind
  obtain ⟨hfile, hisFolder⟩ := checkFolder_ok_iff.1 hfolder
  unfold makeFolder
  cases hlast : (segments path).getLast? with
  | none =>
    have hnil := List.getLast?_eq_none_iff.1 hlast
    rw [hnil] at hway
    obtain rfl : start home path = loc := Except.ok.inj hway
    unfold findFolder
    simp only [hpath, hnil, List.dropLast_nil, List.foldlM_nil, pure, Except.pure, hfolder, bind,
      Except.bind]
    rfl
  | some last =>
    obtain ⟨front, hsegments⟩ := List.getLast?_eq_some_iff.1 hlast
    rw [hsegments] at hway
    obtain ⟨folder, hfront, hstep⟩ := foldlM_step_concat.1 hway
    rw [findFolder_of_way hpath hsegments hfront (step_ok hstep).1]
    cases hname : (some last).filter fun name => name ≠ "." && name ≠ ".." with
    | none => rfl
    | some name =>
      obtain rfl := Option.some.inj (Option.filter_eq_some_iff.1 hname).1
      simp only [bind, Except.bind, hstep, hfile, hisFolder]
      rfl

def AddsFolders (s s' : Storage) : Prop := ∃ more, s' = { s with folders := more ++ s.folders }

theorem AddsFolders.refl (s : Storage) : s.AddsFolders s := ⟨[], rfl⟩

theorem AddsFolders.trans {a b c : Storage} (hab : a.AddsFolders b) (hbc : b.AddsFolders c) :
    a.AddsFolders c := by
  obtain ⟨more, rfl⟩ := hab
  obtain ⟨more', rfl⟩ := hbc
  exact ⟨more' ++ more, by simp⟩

theorem AddsFolders.fileAt? {s s' : Storage} (h : s.AddsFolders s') (loc : Location) :
    s'.fileAt? loc = s.fileAt? loc := by
  obtain ⟨more, rfl⟩ := h
  rfl

theorem AddsFolders.extends {s s' : Storage} (h : s.AddsFolders s') : s.Extends s' := by
  obtain ⟨more, rfl⟩ := h
  refine ⟨rfl, fun loc hfolder => ?_⟩
  obtain ⟨hnone, hfolder⟩ := checkFolder_ok_iff.1 hfolder
  refine checkFolder_ok_iff.2 ⟨hnone, ?_⟩
  unfold isFolder at *
  simp only [List.any_append, Bool.or_eq_true] at *
  rcases hfolder with (hroot | hmade) | hinside
  · exact .inl (.inl hroot)
  · exact .inl (.inr (.inr hmade))
  · exact .inr hinside

theorem addsFolders_makeFolder {s s' : Storage} {home : Location} {path : String}
    (h : s.makeFolder home path = .ok s') : s.AddsFolders s' := by
  obtain ⟨⟨folder, name⟩, -, h⟩ := bind_ok h
  cases name with
  | none =>
    cases Except.ok.inj h
    exact .refl s
  | some name =>
    obtain ⟨loc, -, h⟩ := bind_ok h
    cases hfile : (s.fileAt? loc).isSome with
    | true =>
      rw [hfile] at h
      cases h
    | false =>
      rw [hfile] at h
      have h' := Except.ok.inj h
      subst h'
      split
      · exact .refl s
      · exact ⟨[loc], rfl⟩

theorem addsFolders_attempt {s : Storage} {home : Location} {path : String} :
    s.AddsFolders (s.attempt (s.makeFolder home path)).2 := by
  cases h : s.makeFolder home path with
  | error cause => exact .refl s
  | ok s' => exact addsFolders_makeFolder h

/-- Folders are all that making folders makes, also when it fails. -/
theorem addsFolders_makeNested (s : Storage) (home : Location) (paths : List String) :
    s.AddsFolders (s.makeNested home paths).2 := by
  induction paths generalizing s with
  | nil => exact .refl s
  | cons path outer ih =>
    unfold makeNested
    -- a folder that is missing on the way is made first, by the rest of the list
    split
    · have houter := ih s
      split
      · rename_i h
        rw [h] at houter
        exact houter.trans addsFolders_attempt
      · exact houter
    · exact addsFolders_attempt

end DotMatrix.Storage
