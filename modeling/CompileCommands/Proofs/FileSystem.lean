import CompileCommands.Proofs.Failure
import CompileCommands.Proofs.FileSystem.Walk

/-!
# File systems that change at one place

Where a file system lacks what another has at a place that is no directory, and is the same
elsewhere, a path shows the same in both unless it is walked over that place (`Lacks.leads`,
`Lacks.leads_or_link`). If the place names a file, that is unless the path leads to the file
(`Lacks.find_eq_ok_iff`). A file that is opened is such a change, and so is a name that is removed.
-/

namespace CompileCommands.FileSystem

variable {fs fs' opened : FileSystem} {place other spot last named : Place} {number n m : Nat}
  {names : List String} {path : String} {purpose : Purpose} {node : Node}

/-! ## Nodes -/

/-- A file system that has what another has, but perhaps not at one place, which is no directory. -/
structure Lacks (place : Place) (fs fs' : FileSystem) : Prop where
  here : fs'.here = fs.here
  elsewhere : ∀ other, other ≠ place → fs'.node? other = fs.node? other
  there : fs'.node? place = none ∨ fs'.node? place = fs.node? place
  notDirectory : ∀ access, fs.node? place ≠ some (.directory access)

namespace Lacks

/-- Nodes are the same but for the one that is gone. -/
theorem node? (h : Lacks place fs fs') (other : Place) :
    fs'.node? other = fs.node? other ∨ other = place ∧ fs'.node? other = none := by
  by_cases hother : other = place
  · subst hother
    rcases h.there with hgone | hsame
    · exact Or.inr ⟨rfl, hgone⟩
    · exact Or.inl hsame
  · exact Or.inl (h.elsewhere other hother)

theorem pass {name : String} (h : Lacks place fs fs') :
    fs'.pass spot name = .ok () ↔ fs.pass spot name = .ok () := by
  unfold FileSystem.pass
  rcases h.node? spot with hsame | ⟨rfl, hgone⟩
  · rw [hsame]
  · rw [hgone]
    cases hnode : fs.node? spot with
    | none => exact Iff.rfl
    | some node =>
        cases node with
        | directory access => exact absurd hnode (h.notDirectory access)
        | _ => simp

theorem target? (h : Lacks place fs fs') (spot : Place) (name : String) :
    fs'.target? spot name = fs.target? spot name ∨
      spot ++ [name] = place ∧ fs'.target? spot name = none ∧ fs'.node? place = none := by
  unfold FileSystem.target?
  rcases h.node? (spot ++ [name]) with hsame | ⟨hplace, hgone⟩
  · exact Or.inl (by rw [hsame])
  · exact Or.inr ⟨hplace, by simp [hgone], hplace ▸ hgone⟩

theorem target?_eq_none {name : String} (h : Lacks place fs fs')
    (htarget : fs.target? spot name = none) : fs'.target? spot name = none := by
  rcases h.target? spot name with hsame | ⟨-, hnone, -⟩
  · rw [hsame, htarget]
  · exact hnone

theorem not_directory_there (h : Lacks place fs fs') (access : Access) :
    fs'.node? place ≠ some (.directory access) := by
  rcases h.there with hgone | hsame
  · simp [hgone]
  · exact hsame ▸ h.notDirectory access

/-- Names that lead on where the place is lacking lead on where it is not, unless they end at a
link there. -/
theorem leads (h : Lacks place fs fs') (hleads : Leads fs' purpose n spot names last)
    (hlast : last ≠ place ∨ ∀ target, fs.node? place ≠ some (.link target)) :
    Leads fs purpose n spot names last := by
  induction hleads with
  | here spot => exact .here spot
  | @down n spot last name rest hpass hblocks htarget hrest ih =>
      cases htarget' : fs.target? spot name with
      | none => exact .down (h.pass.mp hpass) hblocks htarget' (ih hlast)
      | some target =>
          obtain ⟨henter, hnode⟩ := target?_eq_some htarget'
          rcases h.target? spot name with hsame | ⟨hplace, -, -⟩
          · rw [hsame, htarget'] at htarget
            cases htarget
          · rw [hplace] at henter hnode
            rw [henter] at hrest
            exact absurd (hrest.eq_of_not_directory h.not_directory_there)
              (hlast.resolve_right fun hlink => hlink target hnode)
  | @link n spot last name target rest hpass hblocks htarget hstays hrest ih =>
      rcases h.target? spot name with hsame | ⟨-, hnone, -⟩
      · exact .link (h.pass.mp hpass) hblocks (hsame ▸ htarget) hstays (ih hlast)
      · rw [hnone] at htarget
        cases htarget
  | @stay spot name target rest hpass htarget hstays =>
      rcases h.target? spot name with hsame | ⟨-, hnone, -⟩
      · exact .stay (h.pass.mp hpass) (hsame ▸ htarget) hstays
      · rw [hnone] at htarget
        cases htarget

/-- Names lead on where the place is lacking, or they are followed over a link there. -/
theorem leads_or_link (h : Lacks place fs fs') (hleads : Leads fs .reach n spot names last) :
    Leads fs' .reach n spot names last ∨
      ∃ target k rest, fs.node? place = some (.link target) ∧
        Leads fs .reach k (start place.dropLast target) (FileSystem.names target ++ rest) last := by
  induction hleads with
  | here spot => exact Or.inl (.here spot)
  | @down n spot last name rest hpass hblocks htarget hrest ih =>
      exact ih.imp_left (.down (h.pass.mpr hpass) hblocks (h.target?_eq_none htarget))
  | @link n spot last name target rest hpass hblocks htarget hstays hrest ih =>
      rcases h.target? spot name with hsame | ⟨hplace, -, -⟩
      · exact ih.imp_left (.link (h.pass.mpr hpass) hblocks (hsame ▸ htarget) hstays)
      · obtain ⟨-, hnode⟩ := target?_eq_some htarget
        refine Or.inr ⟨target, n, rest, hplace ▸ hnode, ?_⟩
        rw [← hplace, List.dropLast_concat]
        exact hrest
  | stay _ _ hstays => cases (Purpose.eq_of_stays hstays).1

theorem locate (h : Lacks place fs fs') (hlocate : fs'.locate purpose path = .ok last)
    (hlast : last ≠ place ∨ ∀ target, fs.node? place ≠ some (.link target)) :
    fs.locate purpose path = .ok last := by
  obtain ⟨hempty, n, hn, hleads⟩ := locate_eq_ok_iff.mp hlocate
  rw [h.here] at hleads
  exact locate_eq_ok_iff.mpr ⟨hempty, n, hn, h.leads hleads hlast⟩

end Lacks

/-! ## What a path shows -/

theorem find_eq_ok_iff :
    fs.find path = .ok node ↔
      ∃ last, fs.locate .reach path = .ok last ∧ fs.node? last = some node ∧
        ∀ target, node ≠ .link target := by
  unfold find
  constructor
  · intro h
    obtain ⟨last, hlocate, h⟩ := bind_eq_ok_iff.mp h
    refine ⟨last, hlocate, ?_⟩
    cases hnode : fs.node? last with
    | none => simp [hnode] at h
    | some found =>
        rw [hnode] at h
        cases found <;> cases h <;> simp
  · rintro ⟨last, hlocate, hnode, hlink⟩
    refine bind_eq_ok_iff.mpr ⟨last, hlocate, ?_⟩
    rw [hnode]
    cases node with
    | link target => exact absurd rfl (hlink target)
    | _ => rfl

/-- What is found where a place is lacking is found where it is not. -/
theorem Lacks.find (h : Lacks place fs fs') (hfind : fs'.find path = .ok node) :
    fs.find path = .ok node := by
  obtain ⟨last, hlocate, hnode, hlink⟩ := find_eq_ok_iff.mp hfind
  have hsame : fs.node? last = some node := by
    rcases h.node? last with hsame | ⟨-, hgone⟩
    · rw [← hsame, hnode]
    · rw [hgone] at hnode
      cases hnode
  refine find_eq_ok_iff.mpr ⟨last, h.locate hlocate ?_, hsame, hlink⟩
  by_cases hlast : last = place
  · subst hlast
    exact Or.inr fun target htarget => hlink target (Option.some.inj (hsame.symm.trans htarget))
  · exact Or.inl hlast

theorem exists?_iff : fs.exists? path = true ↔ ∃ node, fs.find path = .ok node := by
  unfold exists?
  cases fs.find path <;> simp

theorem read_eq_ok_iff {bytes : List UInt8} :
    fs.read path = .ok bytes ↔
      ∃ number, fs.find path = .ok (.file number) ∧
        (fs.contents number).access.read = true ∧ (fs.contents number).bytes = bytes := by
  unfold read
  constructor
  · intro h
    obtain ⟨node, hfind, h⟩ := bind_eq_ok_iff.mp h
    cases node with
    | file number =>
        by_cases hread : (fs.contents number).access.read = true
        · simp only [hread, if_true, Except.ok.injEq] at h
          exact ⟨number, hfind, hread, h⟩
        · simp [hread] at h
    | _ => cases h
  · rintro ⟨number, hfind, hread, hbytes⟩
    refine bind_eq_ok_iff.mpr ⟨.file number, hfind, ?_⟩
    simp only [hread, if_true, hbytes]

/-- A path shows the same in two file systems: whether it exists, and the bytes that it reads. -/
def SameAt (path : String) (fs fs' : FileSystem) : Prop :=
  fs'.exists? path = fs.exists? path ∧
    ∀ bytes, fs'.read path = .ok bytes ↔ fs.read path = .ok bytes

/-- A file stands at a place, or a link there leads to it. -/
def IsNameOf (fs : FileSystem) (place : Place) (number : Nat) : Prop :=
  ∃ last, fs.node? last = some (.file number) ∧ (place = last ∨ LinkTo fs place last)

theorem IsNameOf.there (h : IsNameOf fs place number) :
    fs.node? place = some (.file number) ∨ ∃ target, fs.node? place = some (.link target) := by
  obtain ⟨last, hnode, rfl | ⟨target, n, hlink, -⟩⟩ := h
  · exact Or.inl hnode
  · exact Or.inr ⟨target, hlink⟩

/-- Without a name of a file, all that does not lead to the file is as it was. -/
theorem Lacks.find_eq_ok_iff (h : Lacks place fs fs') (hname : IsNameOf fs place number)
    (hpath : fs.find path ≠ .ok (.file number)) (node : Node) :
    fs'.find path = .ok node ↔ fs.find path = .ok node := by
  constructor
  · exact h.find
  · intro hfind
    obtain ⟨last, hlocate, hnode, hlink⟩ := FileSystem.find_eq_ok_iff.mp hfind
    obtain ⟨file, hfile, hplace⟩ := hname
    have hother : last ≠ file := by
      rintro rfl
      obtain rfl : node = .file number := Option.some.inj (hnode.symm.trans hfile)
      exact hpath hfind
    obtain ⟨hempty, n, hn, hleads⟩ := locate_eq_ok_iff.mp hlocate
    rw [← h.here] at hleads
    rcases h.leads_or_link hleads with hleads | ⟨target, k, rest, htarget, hover⟩
    · refine FileSystem.find_eq_ok_iff.mpr
        ⟨last, locate_eq_ok_iff.mpr ⟨hempty, n, hn, hleads⟩, ?_, hlink⟩
      rw [h.elsewhere last ?_]
      · exact hnode
      · rintro rfl
        rcases hplace with rfl | ⟨target, m, htarget, -⟩
        · exact hother rfl
        · exact hlink target (Option.some.inj (hnode.symm.trans htarget))
    · -- over the link the names lead to the file, and from there no further
      rcases hplace with rfl | ⟨target', m, htarget', hends⟩
      · rw [hfile] at htarget
        cases htarget
      · rw [htarget'] at htarget
        cases htarget
        obtain ⟨i, j, middle, hfront, hback⟩ := hover.split
        obtain rfl := hfront.unique hends
        exact absurd (hback.eq_of_not_directory (by simp [hfile])) hother

/-! ## Opening a file -/

namespace IsOpen

end IsOpen

/-! ## Removing a name -/

/-- The directory that a place lies in can be written. -/
def IsChangeable (fs : FileSystem) (place : Place) : Prop :=
  ∃ access, fs.node? place.dropLast = some (.directory access) ∧ access.write = true

/-- At all but some places stands what stood there, all but one file hold what they held, and a path
shows the same that does not lead to that file while it is open. -/
def SameBut (touched : List Place) (number : Nat) (opened fs fs' : FileSystem) : Prop :=
  (∀ other, other ∉ touched → fs'.node? other = fs.node? other) ∧
    (∀ other, other ≠ number → fs'.contents other = fs.contents other) ∧
    ∀ path, opened.find path ≠ .ok (.file number) → SameAt path fs fs'

end CompileCommands.FileSystem
