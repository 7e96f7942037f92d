import CompileCommands.Path
import CompileCommands.Proofs.Text.Space

/-!
# Reduced paths

The base name of a name in a directory is the name (`baseName_append`). A path is reduced to names,
below names of parents where it is relative (`reduced_isReduced`), so no empty segment is left, no
`.`, and no `..` behind a name. Reducing names of this kind changes nothing, and a reduced path is
made of the names it came from, so it is its own reduction (`normalize_normalize`).
-/

namespace CompileCommands.Path

/-! ## Base names -/

theorem baseName_append (directory : String) {name : String} (hname : name ≠ "")
    (hslash : '/' ∉ name.toList) : baseName (directory ++ "/" ++ name) = name := by
  obtain ⟨last, front, hlast⟩ : ∃ last front, name.toList.reverse = last :: front := by
    refine List.exists_cons_of_ne_nil ?_
    simpa using hname
  have hkept : ∀ c ∈ last :: front, decide (c ≠ '/') = true := by
    intro c hc
    rw [← hlast, List.mem_reverse] at hc
    exact decide_eq_true fun heq => hslash (heq ▸ hc)
  have hne : decide (last = '/') = false := by simpa using hkept last List.mem_cons_self
  have hreverse : (directory ++ "/" ++ name).toList.reverse =
      (last :: front) ++ '/' :: directory.toList.reverse := by
    simp [hlast]
  rw [baseName, hreverse, List.cons_append, List.dropWhile_cons_of_neg (by simp [hne]),
    ← List.cons_append, List.takeWhile_append_of_pos hkept, List.takeWhile_cons_of_neg (by simp),
    List.append_nil, ← hlast, List.reverse_reverse, String.ofList_toList]

theorem baseName_slash (path : String) : baseName (path ++ "/") = baseName path := by
  simp [baseName]

/-! ## Reduced segments -/

def IsName (name : String) : Prop :=
  name ≠ "" ∧ name ≠ "." ∧ name ≠ ".." ∧ '/' ∉ name.toList

/-- Reduced segments, the innermost first: names, below parents of the place where a relative path
begins. -/
inductive IsReduced (absolute : Bool) : List String → Prop
  | nil : IsReduced absolute []
  | parent {above : List String} (hrelative : absolute = false) (habove : IsReduced absolute above)
      (hparents : ∀ segment ∈ above, segment = "..") : IsReduced absolute (".." :: above)
  | name {above : List String} {name : String} (hname : IsName name)
      (habove : IsReduced absolute above) : IsReduced absolute (name :: above)

variable {absolute : Bool} {above : List String} {segment path : String}

theorem IsReduced.of_mem (h : IsReduced absolute above) (hsegment : segment ∈ above) :
    segment ≠ "" ∧ segment ≠ "." ∧ '/' ∉ segment.toList := by
  induction h with
  | nil => cases hsegment
  | parent _ _ hparents =>
      have hparent : segment = ".." := (List.mem_cons.mp hsegment).elim id (hparents segment)
      rw [hparent]
      decide
  | name hname _ ih =>
      rcases List.mem_cons.mp hsegment with rfl | hsegment
      · exact ⟨hname.1, hname.2.1, hname.2.2.2⟩
      · exact ih hsegment

theorem descend_isReduced (h : IsReduced absolute above) (hslash : '/' ∉ segment.toList) :
    IsReduced absolute (descend absolute above segment) := by
  unfold descend
  by_cases hstay : segment = "" ∨ segment = "."
  · rw [if_pos (by simpa using hstay)]
    exact h
  rw [if_neg (by simpa using hstay)]
  obtain ⟨hempty, hdot⟩ := not_or.mp hstay
  by_cases hup : segment = ".."
  · rw [if_pos hup]
    cases h with
    | nil =>
        cases absolute with
        | true => exact .nil
        | false => exact .parent rfl .nil (by simp)
    | parent hrelative habove hparents =>
        exact .parent hrelative (.parent hrelative habove hparents) (by simpa using hparents)
    | name hname habove =>
        simp only [if_neg hname.2.2.1]
        exact habove
  · rw [if_neg hup]
    exact .name ⟨hempty, hdot, hup, hslash⟩ h

theorem segments_slash (h : segment ∈ segments path) : '/' ∉ segment.toList := by
  obtain ⟨piece, hpiece, rfl⟩ := List.mem_map.mp h
  rw [List.splitOn_eq_splitOnP] at hpiece
  intro hmem
  rw [String.toList_ofList] at hmem
  simpa using Text.not_of_mem_splitOnP hpiece '/' hmem

theorem reduced_isReduced (path : String) : IsReduced (isAbsolute path) (reduced path).reverse := by
  rw [reduced, List.reverse_reverse]
  have hfold : ∀ (segments above : List String), IsReduced (isAbsolute path) above →
      (∀ segment ∈ segments, '/' ∉ segment.toList) →
      IsReduced (isAbsolute path) (segments.foldl (descend (isAbsolute path)) above) := by
    intro segments
    induction segments with
    | nil => exact fun above habove _ => habove
    | cons segment segments ih =>
        intro above habove hslash
        exact ih _ (descend_isReduced habove (hslash segment List.mem_cons_self))
          fun other hother => hslash other (List.mem_cons_of_mem _ hother)
  exact hfold (segments path) [] .nil fun segment => segments_slash

/-- Reducing what is reduced changes nothing. -/
theorem IsReduced.foldl (h : IsReduced absolute above) :
    above.reverse.foldl (descend absolute) [] = above := by
  induction h with
  | nil => rfl
  | @parent above hrelative _ hparents ih =>
      rw [List.reverse_cons, List.foldl_append, ih, hrelative]
      cases above with
      | nil => rfl
      | cons first above =>
          obtain rfl := hparents first List.mem_cons_self
          rfl
  | name hname _ ih =>
      rw [List.reverse_cons, List.foldl_append, ih]
      simp [descend, hname.1, hname.2.1, hname.2.2.1]

/-! ## Rows of names -/

def row (absolute closed : Bool) (names : List String) : String :=
  (if absolute then "/" else "") ++ "/".intercalate names ++ if closed then "/" else ""

section Rows

variable {names : List String} (hne : names ≠ [])
  (hnames : ∀ name ∈ names, name ≠ "" ∧ '/' ∉ name.toList)

theorem head?_intercalate {pieces : List (List Char)}
    (h : ∀ piece ∈ pieces, piece ≠ [] ∧ '/' ∉ piece) :
    ∀ c ∈ (['/'].intercalate pieces).head?, c ≠ '/' := by
  cases pieces with
  | nil => simp
  | cons piece pieces =>
      obtain ⟨hempty, hslash⟩ := h piece List.mem_cons_self
      obtain ⟨first, rest, rfl⟩ := List.exists_cons_of_ne_nil hempty
      have hfirst : first ≠ '/' := fun heq => hslash (heq ▸ List.mem_cons_self)
      cases pieces <;> simpa using hfirst

theorem getLast?_intercalate : ∀ {pieces : List (List Char)},
    (∀ piece ∈ pieces, piece ≠ [] ∧ '/' ∉ piece) →
      ∀ c ∈ (['/'].intercalate pieces).getLast?, c ≠ '/'
  | [], _ => by simp
  | [piece], h => by
      obtain ⟨-, hslash⟩ := h piece List.mem_cons_self
      rw [List.intercalate_singleton]
      exact fun c hc heq => hslash (heq ▸ List.mem_of_getLast? hc)
  | piece :: next :: pieces, h => by
      have hrest : ∀ piece ∈ next :: pieces, piece ≠ [] ∧ '/' ∉ piece :=
        fun piece hpiece => h piece (List.mem_cons_of_mem _ hpiece)
      have hne : ['/'].intercalate (next :: pieces) ≠ [] := by
        cases pieces <;> simp [(hrest next List.mem_cons_self).1]
      rw [List.intercalate_cons_cons, List.getLast?_append_of_ne_nil _ hne]
      exact getLast?_intercalate hrest

theorem toList_row (absolute closed : Bool) (names : List String) :
    (row absolute closed names).toList =
      (if absolute then ['/'] else []) ++ ['/'].intercalate (names.map String.toList) ++
        if closed then ['/'] else [] := by
  cases absolute <;> cases closed <;> simp [row, String.toList_intercalate]

include hnames in
theorem pieces_of_names : ∀ piece ∈ names.map String.toList, piece ≠ [] ∧ '/' ∉ piece := by
  intro piece hpiece
  obtain ⟨name, hname, rfl⟩ := List.mem_map.mp hpiece
  exact ⟨by simpa using (hnames name hname).1, (hnames name hname).2⟩

include hne hnames in
theorem intercalate_ne_nil : ['/'].intercalate (names.map String.toList) ≠ [] := by
  obtain ⟨name, names, rfl⟩ := List.exists_cons_of_ne_nil hne
  have hname := (hnames name List.mem_cons_self).1
  cases names <;> simp [hname]

include hne hnames in
theorem isAbsolute_row (absolute closed : Bool) : isAbsolute (row absolute closed names) = absolute := by
  rw [isAbsolute, toList_row]
  cases absolute with
  | true => simp
  | false =>
      obtain ⟨first, rest, hrow⟩ := List.exists_cons_of_ne_nil (intercalate_ne_nil hne hnames)
      have hfirst := head?_intercalate (pieces_of_names hnames) first (by simp [hrow])
      simp [hrow, hfirst]

include hne hnames in
theorem endsInSlash_row (absolute closed : Bool) :
    endsInSlash (row absolute closed names) = closed := by
  rw [endsInSlash, toList_row]
  cases closed with
  | true => simp
  | false =>
      obtain ⟨front, last, hrow⟩ := List.eq_nil_or_concat _ |>.resolve_left
        (intercalate_ne_nil hne hnames)
      have hlast := getLast?_intercalate (pieces_of_names hnames) last (by simp [hrow])
      simp [hrow, hlast]

include hne hnames in
theorem segments_row (absolute closed : Bool) :
    segments (row absolute closed names) =
      (if absolute then [""] else []) ++ names ++ if closed then [""] else [] := by
  have hrow : (['/'].intercalate (names.map String.toList)).splitOn '/' =
      names.map String.toList :=
    List.splitOn_intercalate '/' (fun piece hpiece => (pieces_of_names hnames piece hpiece).2)
      (by simpa using hne)
  have hback : (['/'].intercalate (names.map String.toList) ++
      if closed then ['/'] else []).splitOn '/' =
      names.map String.toList ++ if closed then [[]] else [] := by
    cases closed with
    | false => simpa using hrow
    | true =>
        rw [List.splitOn_eq_splitOnP] at hrow ⊢
        rw [if_pos rfl, List.splitOnP_append_cons _ [] (by simp), hrow]
        rfl
  have hall : (row absolute closed names).toList.splitOn '/' =
      (if absolute then [[]] else []) ++ (names.map String.toList ++ if closed then [[]] else []) := by
    rw [toList_row, List.append_assoc]
    cases absolute with
    | false => simpa using hback
    | true =>
        rw [List.splitOn_eq_splitOnP] at hback ⊢
        rw [if_pos rfl, List.singleton_append, ← List.nil_append ('/' :: _),
          List.splitOnP_append_cons [] _ (by simp), hback]
        rfl
  rw [segments, hall]
  cases absolute <;> cases closed <;> simp [Function.comp_def]

end Rows

/-! ## Reduction -/

theorem good_reduced (path : String) : ∀ name ∈ reduced path, name ≠ "" ∧ '/' ∉ name.toList := by
  intro name hname
  obtain ⟨hempty, -, hslash⟩ := (reduced_isReduced path).of_mem (List.mem_reverse.mpr hname)
  exact ⟨hempty, hslash⟩

theorem normalize_of_nil (h : reduced path = []) :
    normalize path = if isAbsolute path then "/" else if endsInSlash path then "./" else "." := by
  rw [normalize, h]
  cases isAbsolute path <;> cases endsInSlash path <;> rfl

theorem normalize_of_ne_nil (h : reduced path ≠ []) :
    normalize path = row (isAbsolute path) (endsInSlash path) (reduced path) := by
  obtain ⟨name, names, hnames⟩ := List.exists_cons_of_ne_nil h
  rw [normalize, hnames, row]
  cases isAbsolute path <;> simp

/-- The segments of a reduced path: its names, with an empty segment where a slash stands first or
last. -/
theorem segments_normalize (h : reduced path ≠ []) :
    segments (normalize path) =
      (if isAbsolute path then [""] else []) ++ reduced path ++
        if endsInSlash path then [""] else [] := by
  rw [normalize_of_ne_nil h, segments_row h (good_reduced path)]

theorem reduced_normalize (path : String) : reduced (normalize path) = reduced path := by
  by_cases h : reduced path = []
  · rw [normalize_of_nil h, h]
    cases isAbsolute path <;> cases endsInSlash path <;> decide
  · have habsolute : isAbsolute (normalize path) = isAbsolute path := by
      rw [normalize_of_ne_nil h, isAbsolute_row h (good_reduced path)]
    have hskip : ∀ above, descend (isAbsolute path) above "" = above := fun above => by simp [descend]
    have hfront : (if isAbsolute path then [""] else []).foldl (descend (isAbsolute path)) [] = [] := by
      cases isAbsolute path <;> rfl
    have hfold := (reduced_isReduced path).foldl
    rw [List.reverse_reverse] at hfold
    rw [reduced, habsolute, segments_normalize h, List.foldl_append, List.foldl_append, hfront, hfold]
    cases endsInSlash path <;> simp [hskip]

/-- A reduced path is its own reduction. -/
theorem normalize_normalize (path : String) : normalize (normalize path) = normalize path := by
  by_cases h : reduced path = []
  · rw [normalize_of_nil h]
    cases isAbsolute path <;> cases endsInSlash path <;> decide
  · have hsame := reduced_normalize path
    rw [normalize_of_ne_nil (by rwa [hsame]), hsame, normalize_of_ne_nil h,
      isAbsolute_row h (good_reduced path), endsInSlash_row h (good_reduced path)]

end CompileCommands.Path
