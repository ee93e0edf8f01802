import DotMatrix.Proofs.Display.Dots

/-!
# Objects on a line

Of the objects that a line overlaps, the ten that are furthest ahead are shown, and at each column
the one furthest ahead that is not transparent. The display sorts the objects, takes ten and
looks for the first. Here the same is said by counting: an object is shown if fewer than ten are
ahead of it (`Selected`), and is in front if none that is shown there is ahead of it (`Foremost`).
`mem_lineEntries` and `foremost_iff` say that sorting and searching comes to this.
-/

namespace DotMatrix.Display

/-! ## Ranks -/

section Rank

variable {α : Type} {ahead : α → α → Prop} [DecidableRel ahead]

/-- Of a list in strict order, the first so many are those with fewer ahead of them. -/
theorem mem_take_iff_countP (hirrefl : ∀ a, ¬ ahead a a)
    (hasymm : ∀ a b, ahead a b → ¬ ahead b a) {l : List α} (h : l.Pairwise ahead) (n : Nat)
    (a : α) :
    a ∈ l.take n ↔ a ∈ l ∧ l.countP (fun b => ahead b a) < n := by
  induction l generalizing n with
  | nil => simp
  | cons b l ih =>
    obtain ⟨hhead, htail⟩ := List.pairwise_cons.1 h
    cases n with
    | zero => simp
    | succ n =>
      rw [List.take_succ_cons, List.mem_cons, List.mem_cons, ih htail, List.countP_cons]
      by_cases hab : a = b
      · subst hab
        have hnone : l.countP (fun c => ahead c a) = 0 :=
          List.countP_eq_zero.2 fun c hc => by simpa using hasymm _ _ (hhead c hc)
        simp [hirrefl, hnone]
      · constructor
        · rintro (rfl | ⟨hmem, hlt⟩)
          · exact absurd rfl hab
          · exact ⟨.inr hmem, by simp [hhead a hmem]; omega⟩
        · rintro ⟨rfl | hmem, hlt⟩
          · exact absurd rfl hab
          · refine .inr ⟨hmem, ?_⟩
            simp [hhead a hmem] at hlt
            omega

end Rank

/-! ## Entries of object memory -/

/-- A byte of an entry of object memory: its row, its column, its tile or its flags. -/
def objectByte (d : Display) (i k : Nat) : Nat := (d.oam.read (i * 4 + k)).toNat

/-- The rows of an object. -/
def objectRows (d : Display) : Nat := if d.controls 2 then 16 else 8

/-- An object has a row on the line. The positions are those of the lower right corner of a tile. -/
def Overlaps (d : Display) (line i : Nat) : Prop :=
  d.objectByte i 0 ≤ line + 16 ∧ line + 16 < d.objectByte i 0 + d.objectRows

/-- Objects further left are ahead, and of two in the same column the earlier entry. -/
def Ahead (d : Display) (i j : Nat) : Prop :=
  d.objectByte i 1 < d.objectByte j 1 ∨ d.objectByte i 1 = d.objectByte j 1 ∧ i < j

instance (d : Display) (line : Nat) : DecidablePred (d.Overlaps line) :=
  fun _ => inferInstanceAs (Decidable (_ ∧ _))

instance (d : Display) : DecidableRel d.Ahead := fun _ _ => inferInstanceAs (Decidable (_ ∨ _))

/-- An object is one of the ten that the line shows: fewer are ahead of it. -/
def Selected (d : Display) (line i : Nat) : Prop :=
  i < objectCount ∧ d.Overlaps line i ∧
    (List.range objectCount).countP (fun j => d.Overlaps line j ∧ d.Ahead j i) < objectsPerLine

/-! ## The selection -/

theorem precedes_iff (o p : ScreenObject) :
    o.precedes p = true ↔ o.x < p.x ∨ o.x = p.x ∧ o.index ≤ p.index := by
  simp [ScreenObject.precedes]

theorem touches_iff (r : Registers) (line : Nat) (o : ScreenObject) :
    touches r line o = true ↔ o.y ≤ line ∧ line < o.y + objectHeight r := by
  simp [touches]

section Order

variable (d : Display)

theorem ahead_irrefl (i : Nat) : ¬ d.Ahead i i := by
  unfold Ahead
  omega

theorem ahead_asymm (i j : Nat) (h : d.Ahead i j) : ¬ d.Ahead j i := by
  unfold Ahead at *
  omega

theorem ahead_of_not {i j : Nat} (hne : i ≠ j) (h : ¬ d.Ahead j i) : d.Ahead i j := by
  unfold Ahead at *
  omega

theorem precedes_read (i j : Nat) :
    (ScreenObject.read d.oam i).precedes (ScreenObject.read d.oam j) = !decide (d.Ahead j i) := by
  have hahead : d.Ahead j i ↔ (d.oam.read (j * 4 + 1)).toNat < (d.oam.read (i * 4 + 1)).toNat ∨
      (d.oam.read (j * 4 + 1)).toNat = (d.oam.read (i * 4 + 1)).toNat ∧ j < i := Iff.rfl
  rw [Bool.eq_iff_iff, Bool.not_eq_true', decide_eq_false_iff_not, hahead, precedes_iff]
  dsimp only [ScreenObject.read]
  omega

theorem objectHeight_eq : objectHeight d.registers = d.objectRows := by
  unfold objectHeight objectRows
  rw [tallObjects_eq]
  split <;> rfl

theorem touches_read (line i : Nat) :
    touches d.registers line (ScreenObject.read d.oam i) = decide (d.Overlaps line i) := by
  have hoverlaps : d.Overlaps line i ↔ (d.oam.read (i * 4)).toNat ≤ line + 16 ∧
      line + 16 < (d.oam.read (i * 4)).toNat + d.objectRows := Iff.rfl
  rw [Bool.eq_iff_iff, decide_eq_true_eq, hoverlaps, touches_iff, objectHeight_eq]
  dsimp only [ScreenObject.read]
  omega

/-- The objects that overlap a line, those ahead first. -/
def inOrder (line : Nat) : List Nat :=
  ((List.range objectCount).filter fun i => d.Overlaps line i).mergeSort
    fun i j => !decide (d.Ahead j i)

/-- The entries that the line shows, those ahead first. -/
def lineEntries (line : Nat) : List Nat := (d.inOrder line).take objectsPerLine

theorem lineObjects_eq (h : d.controls 1 = true) (line : Nat) :
    lineObjects d.oam d.registers line = (d.lineEntries line).map (ScreenObject.read d.oam) := by
  have htouches : touches d.registers line ∘ ScreenObject.read d.oam =
      fun i => decide (d.Overlaps line i) := funext fun i => d.touches_read line i
  unfold lineObjects lineEntries inOrder
  rw [objectsOn_eq, h]
  simp only [Bool.not_true, Bool.false_eq_true, if_false]
  rw [List.filter_map, htouches, List.map_take,
    List.map_mergeSort fun i _ j _ => (d.precedes_read i j).symm]

theorem perm_inOrder (line : Nat) :
    (d.inOrder line).Perm ((List.range objectCount).filter fun i => d.Overlaps line i) :=
  List.mergeSort_perm _ _

/-- Sorting puts those ahead first, since no entry is twice in object memory. -/
theorem pairwise_inOrder (line : Nat) : (d.inOrder line).Pairwise d.Ahead := by
  have htrans : ∀ i j k, (!decide (d.Ahead j i)) = true → (!decide (d.Ahead k j)) = true →
      (!decide (d.Ahead k i)) = true := by
    intro i j k
    simp only [Bool.not_eq_true', decide_eq_false_iff_not]
    unfold Ahead
    omega
  have htotal : ∀ i j, (!decide (d.Ahead j i) || !decide (d.Ahead i j)) = true := by
    intro i j
    simp only [Bool.or_eq_true, Bool.not_eq_true', decide_eq_false_iff_not]
    unfold Ahead
    omega
  have hsorted := List.pairwise_mergeSort htrans htotal
    ((List.range objectCount).filter fun i => d.Overlaps line i)
  have hnodup : (d.inOrder line).Nodup :=
    (d.perm_inOrder line).symm.nodup (List.nodup_range.filter _)
  refine (hsorted.and hnodup).imp ?_
  rintro i j ⟨hle, hne⟩
  exact d.ahead_of_not hne (by simpa using hle)

theorem mem_lineEntries {line i : Nat} : i ∈ d.lineEntries line ↔ d.Selected line i := by
  have hperm := d.perm_inOrder line
  unfold lineEntries Selected
  rw [mem_take_iff_countP d.ahead_irrefl d.ahead_asymm (d.pairwise_inOrder line), hperm.mem_iff,
    hperm.countP_eq, List.countP_filter, List.mem_filter, List.mem_range]
  simp [and_assoc, and_comm]

end Order

/-! ## The foremost object -/

def objectFlag (d : Display) (i bit : Nat) : Bool := (d.oam.read (i * 4 + 3)).toNat.testBit bit

/-- An object has a column there. -/
def Covers (d : Display) (x i : Nat) : Prop :=
  d.objectByte i 1 ≤ x + 8 ∧ x + 8 < d.objectByte i 1 + 8

/-- The dot of an object, whose tiles may be flipped. A tall object begins with an even tile. -/
def objectDot (d : Display) (line x i : Nat) : Nat :=
  let row := line + 16 - d.objectByte i 0
  let column := x + 8 - d.objectByte i 1
  let tile := if d.controls 2 then d.objectByte i 2 / 2 * 2 else d.objectByte i 2
  d.dot (16 * tile + 2 * if d.objectFlag i 6 then d.objectRows - 1 - row else row)
    (if d.objectFlag i 5 then 7 - column else column)

/-- An object that the line shows is there, and not transparent. -/
def Shows (d : Display) (line x i : Nat) : Prop :=
  d.Selected line i ∧ d.Covers x i ∧ d.objectDot line x i ≠ 0

def Foremost (d : Display) (line x i : Nat) : Prop :=
  d.Shows line x i ∧ ∀ j, d.Shows line x j → ¬ d.Ahead j i

instance (d : Display) (x : Nat) : DecidablePred (d.Covers x) :=
  fun _ => inferInstanceAs (Decidable (_ ∧ _))

theorem toNat_evenTile : ∀ tile : UInt8, (tile &&& 0xFE).toNat = tile.toNat / 2 * 2 :=
  forall_byte (by decide +kernel)

section Foremost

variable (d : Display)

/-- The colour index that an entry of object memory has at a column. -/
def entryColour (line x i : Nat) : UInt8 :=
  objectColour d.vram d.registers line x (ScreenObject.read d.oam i)

theorem flipY_read (i : Nat) : (ScreenObject.read d.oam i).flipY = d.objectFlag i 6 :=
  anySet_bit _ _ 6 rfl

theorem flipX_read (i : Nat) : (ScreenObject.read d.oam i).flipX = d.objectFlag i 5 :=
  anySet_bit _ _ 5 rfl

/-- An even tile begins an object of two. -/
theorem tile_read (i : Nat) :
    (if d.registers.tallObjects then (ScreenObject.read d.oam i).tile &&& 0xFE
      else (ScreenObject.read d.oam i).tile).toNat =
        if d.controls 2 then d.objectByte i 2 / 2 * 2 else d.objectByte i 2 := by
  rw [tallObjects_eq]
  split
  · exact toNat_evenTile _
  · rfl

theorem outside_read (x i : Nat) :
    ((x : Int) < (ScreenObject.read d.oam i).x ||
      (ScreenObject.read d.oam i).x + 8 ≤ x) = true ↔ ¬ d.Covers x i := by
  rw [Bool.or_eq_true, decide_eq_true_eq, decide_eq_true_eq]
  simp only [ScreenObject.read, Covers, objectByte]
  omega

theorem toNat_entryColour {line i : Nat} (h : d.Overlaps line i) (x : Nat) :
    (d.entryColour line x i).toNat = if d.Covers x i then d.objectDot line x i else 0 := by
  obtain ⟨habove, hbelow⟩ := h
  have hrow : ((line : Int) - (ScreenObject.read d.oam i).y).toNat =
      line + 16 - d.objectByte i 0 := by
    simp only [ScreenObject.read, objectByte, Nat.add_zero] at *
    omega
  have hcolumn : ((x : Int) - (ScreenObject.read d.oam i).x).toNat =
      x + 8 - d.objectByte i 1 := by
    simp only [ScreenObject.read, objectByte]
    omega
  have hrows : (objectHeight d.registers).toNat = d.objectRows := by
    rw [objectHeight_eq]
    rfl
  unfold entryColour objectColour
  by_cases hcovers : d.Covers x i
  · rw [if_neg fun hout => (d.outside_read x i).1 hout hcovers, if_pos hcovers]
    dsimp only
    rw [hrow, hcolumn, hrows, flipY_read, flipX_read, toNat_tileColour, tile_read]
    unfold objectDot
    -- eight rows fill a tile, and the next tile follows it
    congr 1
    omega
  · rw [if_pos ((d.outside_read x i).2 hcovers), if_neg hcovers]
    rfl

/-- The first entry that is not transparent at a column. -/
def firstShown? (line x : Nat) : Option Nat :=
  (d.lineEntries line).find? fun i => d.entryColour line x i ≠ 0

theorem objectAt?_map (line x : Nat) (entries : List Nat) :
    objectAt? d.vram d.registers (entries.map (ScreenObject.read d.oam)) line x =
      (entries.find? fun i => d.entryColour line x i ≠ 0).map fun i =>
        (d.entryColour line x i, ScreenObject.read d.oam i) := by
  induction entries with
  | nil => rfl
  | cons i rest ih =>
    have hstep : objectAt? d.vram d.registers ((i :: rest).map (ScreenObject.read d.oam)) line x =
        if d.entryColour line x i ≠ 0 then
          some (d.entryColour line x i, ScreenObject.read d.oam i)
        else objectAt? d.vram d.registers (rest.map (ScreenObject.read d.oam)) line x := rfl
    rw [hstep, ih, List.find?_cons]
    by_cases hcolour : d.entryColour line x i ≠ 0
    · rw [if_pos hcolour, decide_eq_true hcolour]
      rfl
    · rw [if_neg hcolour, decide_eq_false hcolour]

theorem shows_iff {line x i : Nat} :
    d.Shows line x i ↔ i ∈ d.lineEntries line ∧ d.entryColour line x i ≠ 0 := by
  rw [mem_lineEntries]
  refine and_congr_right fun hselected => ?_
  have hsolid : d.entryColour line x i ≠ 0 ↔ (d.entryColour line x i).toNat ≠ 0 :=
    not_congr UInt8.toNat_inj.symm
  rw [hsolid, d.toNat_entryColour hselected.2.1]
  by_cases hcovers : d.Covers x i <;> simp [hcovers]

theorem pairwise_lineEntries (line : Nat) : (d.lineEntries line).Pairwise d.Ahead :=
  (d.pairwise_inOrder line).sublist (List.take_sublist _ _)

/-- The first of the entries in order is the foremost. -/
theorem foremost_of_firstShown {line x i : Nat} (h : d.firstShown? line x = some i) :
    d.Foremost line x i := by
  obtain ⟨hcolour, before, after, hentries, hbefore⟩ := List.find?_eq_some_iff_append.1 h
  have hmem : i ∈ d.lineEntries line := by
    rw [hentries]
    simp
  refine ⟨d.shows_iff.2 ⟨hmem, by simpa using hcolour⟩, fun j hj => ?_⟩
  obtain ⟨hmem', hcolour'⟩ := d.shows_iff.1 hj
  have hpair := d.pairwise_lineEntries line
  rw [hentries, List.pairwise_append, List.pairwise_cons] at hpair
  rw [hentries, List.mem_append, List.mem_cons] at hmem'
  rcases hmem' with hearlier | rfl | hlater
  · exact absurd (hbefore j hearlier) (by simpa using hcolour')
  · exact d.ahead_irrefl j
  · exact d.ahead_asymm _ _ (hpair.2.1.1 j hlater)

theorem not_shows_of_firstShown {line x : Nat} (h : d.firstShown? line x = none) (i : Nat) :
    ¬ d.Shows line x i := by
  intro hshows
  obtain ⟨hmem, hcolour⟩ := d.shows_iff.1 hshows
  have := List.find?_eq_none.1 h i hmem
  exact absurd hcolour (by simpa using this)

theorem foremost_iff {line x i : Nat} :
    d.Foremost line x i ↔ d.firstShown? line x = some i := by
  refine ⟨fun h => ?_, d.foremost_of_firstShown⟩
  cases hfirst : d.firstShown? line x with
  | none => exact absurd h.1 (d.not_shows_of_firstShown hfirst i)
  | some j =>
    -- neither is ahead of the other
    have hj := d.foremost_of_firstShown hfirst
    have hij := h.2 j hj.1
    have hji := hj.2 i h.1
    by_cases hne : i = j
    · rw [hne]
    · exact absurd (d.ahead_of_not hne hij) hji

end Foremost

end DotMatrix.Display
