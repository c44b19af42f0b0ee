import Mathlib

/-!
# Merging trees of named children

A patch is merged into a tree the way scripts merge parsed objects: a leaf of
the patch replaces what stands at its place, and an object of the patch is
merged into the object there. A truthy leaf does not give way to an object.
-/

namespace HttpMonitoring.Library.DeepMerge

inductive Doc (κ α : Type*)
  | leaf (a : α)
  | node (members : List (κ × Doc κ α))

namespace Doc

variable {κ α β : Type*}

def isLeaf : Doc κ α → Bool
  | .leaf _ => true
  | .node _ => false

section Maps

variable (f : α → β)

mutual

def map : Doc κ α → Doc κ β
  | .leaf a => .leaf (f a)
  | .node members => .node (mapMembers members)

def mapMembers : List (κ × Doc κ α) → List (κ × Doc κ β)
  | [] => []
  | (k, t) :: members => (k, t.map) :: mapMembers members

end

end Maps

/-- The names and nothing else. -/
def shape (t : Doc κ α) : Doc κ Unit := t.map fun _ => ()

/-- No name stands twice. -/
inductive Distinct : Doc κ α → Prop
  | leaf (a : α) : Distinct (.leaf a)
  | node {members : List (κ × Doc κ α)} (hNames : (members.map Prod.fst).Nodup)
      (h : ∀ m ∈ members, Distinct m.2) : Distinct (.node members)

theorem Distinct.names {members : List (κ × Doc κ α)} (h : Distinct (.node members)) :
    (members.map Prod.fst).Nodup := by
  cases h with
  | node hNames _ => exact hNames

variable [DecidableEq κ]

/-- The child of a name. -/
def get (members : List (κ × Doc κ α)) (k : κ) : Option (Doc κ α) :=
  (members.find? fun m => m.1 == k).map Prod.snd

/-- An assignment to a property, which keeps its place or becomes the last one. -/
def set (k : κ) (t : Doc κ α) : List (κ × Doc κ α) → List (κ × Doc κ α)
  | [] => [(k, t)]
  | m :: members => if m.1 = k then (k, t) :: members else m :: set k t members

/-- What stands at a path. -/
def find : Doc κ α → List κ → Option (Doc κ α)
  | t, [] => some t
  | .leaf _, _ :: _ => none
  | .node members, k :: path => (get members k).bind fun t => t.find path

section Merge

variable (truthy : α → Bool)

mutual

/-- What a member of a patch puts in the place of what is there. -/
def mergeValue (target : Option (Doc κ α)) : Doc κ α → Doc κ α
  | .leaf a => .leaf a
  | .node patch =>
    match target with
    | none => .node (mergeMembers [] patch)
    | some (.leaf a) => if truthy a then .leaf a else .node (mergeMembers [] patch)
    | some (.node members) => .node (mergeMembers members patch)

def mergeMembers (members : List (κ × Doc κ α)) : List (κ × Doc κ α) → List (κ × Doc κ α)
  | [] => members
  | (k, t) :: patch => mergeMembers (set k (mergeValue (get members k) t) members) patch

end

end Merge

@[simp] theorem get_nil (k : κ) : get ([] : List (κ × Doc κ α)) k = none := rfl

theorem get_cons (m : κ × Doc κ α) (members : List (κ × Doc κ α)) (k : κ) :
    get (m :: members) k = if m.1 = k then some m.2 else get members k := by
  rw [get, List.find?_cons]
  by_cases h : m.1 = k
  · rw [if_pos h, beq_iff_eq.mpr h]
    rfl
  · rw [if_neg h, beq_false_of_ne h]
    rfl

theorem get_eq_none {members : List (κ × Doc κ α)} {k : κ} (h : k ∉ members.map Prod.fst) :
    get members k = none := by
  induction members with
  | nil => rfl
  | cons m members ih =>
    obtain ⟨hFirst, hRest⟩ := not_or.mp (mt List.mem_cons.mpr h)
    rw [get_cons, if_neg fun hSame => hFirst hSame.symm, ih hRest]

theorem mem_of_get {members : List (κ × Doc κ α)} {k : κ} {t : Doc κ α} (h : get members k = some t) :
    (k, t) ∈ members := by
  obtain ⟨m, hFind, rfl⟩ := Option.map_eq_some_iff.mp h
  have hName : m.1 = k := by simpa using List.find?_some hFind
  exact hName ▸ List.mem_of_find?_eq_some hFind

theorem get_set_self (k : κ) (t : Doc κ α) (members : List (κ × Doc κ α)) :
    get (set k t members) k = some t := by
  induction members with
  | nil => rw [set, get_cons, if_pos rfl]
  | cons m members ih =>
    rw [set]
    split
    · rw [get_cons, if_pos rfl]
    · rename_i hOther
      rw [get_cons, if_neg hOther, ih]

theorem get_set_of_ne {j k : κ} (h : k ≠ j) (t : Doc κ α) (members : List (κ × Doc κ α)) :
    get (set k t members) j = get members j := by
  induction members with
  | nil => rw [set, get_cons, if_neg h]
  | cons m members ih =>
    rw [set]
    split
    · rename_i hSame
      rw [get_cons, get_cons, if_neg h, if_neg (hSame ▸ h)]
    · rw [get_cons, get_cons, ih]

variable {truthy : α → Bool}

/-- After a merge a name stands for what the patch puts there. -/
theorem get_mergeMembers {patch : List (κ × Doc κ α)} (hNames : (patch.map Prod.fst).Nodup)
    (members : List (κ × Doc κ α)) (k : κ) : get (mergeMembers truthy members patch) k =
      match get patch k with
      | none => get members k
      | some t => some (mergeValue truthy (get members k) t) := by
  induction patch generalizing members with
  | nil => rw [mergeMembers, get_nil]
  | cons m patch ih =>
    obtain ⟨j, t⟩ := m
    obtain ⟨hFirst, hRest⟩ := List.nodup_cons.mp hNames
    rw [mergeMembers, ih hRest, get_cons]
    by_cases h : j = k
    · subst h
      rw [get_eq_none hFirst, if_pos rfl]
      exact get_set_self j _ members
    · rw [if_neg h, get_set_of_ne h]

/-- What stands at a path of a tree that may be missing. -/
def reach (target : Option (Doc κ α)) (path : List κ) : Option (Doc κ α) := target.bind fun t => t.find path

theorem find_cons (members : List (κ × Doc κ α)) (k : κ) (path : List κ) :
    (node members).find (k :: path) = reach (get members k) path := by
  rw [find]
  rfl

theorem reach_node (members : List (κ × Doc κ α)) (k : κ) : reach (some (node members)) [k] = get members k := by
  have hFind := find_cons members k []
  cases hGet : get members k with
  | none => rwa [hGet] at hFind
  | some t => rwa [hGet] at hFind

theorem reach_cons (target : Option (Doc κ α)) (k : κ) (path : List κ) :
    reach target (k :: path) = reach (reach target [k]) path := by
  cases target with
  | none => rfl
  | some t =>
    cases t with
    | leaf a => rfl
    | node members =>
      rw [reach_node]
      exact find_cons members k path

/-- Where both have something, both have a leaf or both an object. -/
def Fits (target : Option (Doc κ α)) (patch : Doc κ β) : Prop :=
  ∀ path t u, patch.find path = some t → reach target path = some u → t.isLeaf = u.isLeaf

theorem Fits.child {target : Option (Doc κ α)} {patch : List (κ × Doc κ β)} (h : Fits target (node patch))
    {k : κ} {t : Doc κ β} (hChild : get patch k = some t) : Fits (reach target [k]) t := by
  intro path t' u hFind hReach
  rw [← reach_cons] at hReach
  refine h (k :: path) t' u ?_ hReach
  rw [find_cons, hChild]
  exact hFind

/-- Under each name a patch that fits is merged, or it leaves the name alone. -/
theorem mergeValue_node (truthy : α → Bool) {target : Option (Doc κ α)} {patch : List (κ × Doc κ α)}
    (h : Fits target (node patch)) (hNames : (patch.map Prod.fst).Nodup) :
    ∃ merged, mergeValue truthy target (node patch) = node merged ∧
      ∀ k, get merged k = match get patch k with
        | none => reach target [k]
        | some t => some (mergeValue truthy (reach target [k]) t) := by
  cases target with
  | none => exact ⟨_, by rw [mergeValue], fun k => get_mergeMembers hNames [] k⟩
  | some t =>
    cases t with
    | leaf a => cases h [] (node patch) (leaf a) rfl rfl
    | node members =>
      refine ⟨_, by rw [mergeValue], fun k => ?_⟩
      rw [reach_node]
      exact get_mergeMembers hNames members k

theorem Distinct.child {members : List (κ × Doc κ α)} (h : Distinct (.node members)) {k : κ} {t : Doc κ α}
    (hChild : get members k = some t) : t.Distinct := by
  cases h with
  | node _ h => exact h _ (mem_of_get hChild)

/-- What stands at a path of the patch stands there in the merged tree, as a
leaf or as an object. -/
theorem find_mergeValue (truthy : α → Bool) {patch : Doc κ α} (hDistinct : patch.Distinct)
    {target : Option (Doc κ α)} (hFits : Fits target patch) {path : List κ} {t : Doc κ α}
    (h : patch.find path = some t) :
    ∃ u, (mergeValue truthy target patch).find path = some u ∧ u.isLeaf = t.isLeaf := by
  induction path generalizing patch target with
  | nil =>
    obtain rfl : patch = t := Option.some.inj h
    refine ⟨_, rfl, ?_⟩
    cases patch with
    | leaf a => rw [mergeValue]
    | node patch =>
      obtain ⟨merged, hMerged, -⟩ := mergeValue_node truthy hFits hDistinct.names
      rw [hMerged, isLeaf, isLeaf]
  | cons k path ih =>
    cases patch with
    | leaf b => cases h
    | node patch =>
      obtain ⟨merged, hMerged, hGet⟩ := mergeValue_node truthy hFits hDistinct.names
      obtain ⟨child, hChild, hBelow⟩ := Option.bind_eq_some_iff.mp ((find_cons patch k path).symm.trans h)
      rw [hMerged, find_cons, hGet k, hChild]
      exact ih (hDistinct.child hChild) (hFits.child hChild) hBelow

/-- The leaf at a path. -/
def leafAt (target : Option (Doc κ α)) (path : List κ) : Option α :=
  match reach target path with
  | some (.leaf a) => some a
  | _ => none

theorem leafAt_cons (target : Option (Doc κ α)) (k : κ) (path : List κ) :
    leafAt target (k :: path) = leafAt (reach target [k]) path := by
  rw [leafAt, leafAt, reach_cons]

/-- The leaves of a merged tree are those of the patch, and at other paths those
that were there. -/
theorem leafAt_mergeValue (truthy : α → Bool) {patch : Doc κ α} (hDistinct : patch.Distinct)
    {target : Option (Doc κ α)} (hFits : Fits target patch) (path : List κ) :
    leafAt (some (mergeValue truthy target patch)) path =
      (leafAt (some patch) path).or (leafAt target path) := by
  induction path generalizing patch target with
  | nil =>
    cases patch with
    | leaf a => rw [mergeValue]; rfl
    | node patch =>
      obtain ⟨merged, hMerged, -⟩ := mergeValue_node truthy hFits hDistinct.names
      rw [hMerged]
      cases target with
      | none => rfl
      | some t =>
        cases t with
        | leaf a => cases hFits [] (node patch) (leaf a) rfl rfl
        | node members => rfl
  | cons k path ih =>
    cases patch with
    | leaf a =>
      rw [mergeValue]
      cases target with
      | none => rfl
      | some t =>
        cases t with
        | leaf b => rfl
        | node members => cases hFits [] (leaf a) (node members) rfl rfl
    | node patch =>
      obtain ⟨merged, hMerged, hGet⟩ := mergeValue_node truthy hFits hDistinct.names
      rw [hMerged, leafAt_cons, leafAt_cons (some (node patch)), leafAt_cons target, reach_node, reach_node,
        hGet k]
      cases hChild : get patch k with
      | none => rfl
      | some t => exact ih (hDistinct.child hChild) (hFits.child hChild)

section Check

mutual

/-- A test for `Fits`. -/
def fits (target : Option (Doc κ α)) : Doc κ β → Bool
  | .leaf _ => target.all isLeaf
  | .node patch =>
    match target with
    | none => true
    | some (.leaf _) => false
    | some (.node members) => fitsMembers members patch

def fitsMembers (members : List (κ × Doc κ α)) : List (κ × Doc κ β) → Bool
  | [] => true
  | (k, t) :: patch => fits (get members k) t && fitsMembers members patch

end

theorem fits_of_get {members : List (κ × Doc κ α)} {patch : List (κ × Doc κ β)}
    (h : fitsMembers members patch = true) {k : κ} {t : Doc κ β} (hChild : get patch k = some t) :
    fits (get members k) t = true := by
  induction patch with
  | nil => cases hChild
  | cons m patch ih =>
    obtain ⟨j, u⟩ := m
    rw [fitsMembers, Bool.and_eq_true] at h
    rw [get_cons] at hChild
    split at hChild
    · rename_i hSame
      obtain rfl := Option.some.inj hChild
      exact hSame ▸ h.1
    · exact ih h.2 hChild

theorem Fits.of_test {target : Option (Doc κ α)} {patch : Doc κ β} (h : fits target patch = true) :
    Fits target patch := by
  intro path t u hFind hReach
  induction path generalizing target patch with
  | nil =>
    obtain rfl : patch = t := Option.some.inj hFind
    obtain ⟨v, rfl, hSame⟩ := Option.bind_eq_some_iff.mp hReach
    obtain rfl : v = u := Option.some.inj hSame
    cases patch with
    | leaf a =>
      rw [fits, Option.all_some] at h
      rw [h, isLeaf]
    | node patch =>
      cases v with
      | leaf a => rw [fits] at h; cases h
      | node members => rfl
  | cons k path ih =>
    cases patch with
    | leaf b => cases hFind
    | node patch =>
      obtain ⟨child, hChild, hBelow⟩ := Option.bind_eq_some_iff.mp ((find_cons patch k path).symm.trans hFind)
      rw [reach_cons] at hReach
      cases target with
      | none => cases hReach
      | some v =>
        cases v with
        | leaf b => cases hReach
        | node members =>
          rw [fits] at h
          rw [reach_node] at hReach
          exact ih (fits_of_get h hChild) hBelow hReach

end Check

theorem get_mapMembers (f : α → β) (members : List (κ × Doc κ α)) (k : κ) :
    get (mapMembers f members) k = (get members k).map (map f) := by
  induction members with
  | nil => rw [mapMembers]; rfl
  | cons m members ih =>
    obtain ⟨j, t⟩ := m
    rw [mapMembers, get_cons, get_cons, ih]
    split <;> rfl

theorem find_map (f : α → β) (t : Doc κ α) (path : List κ) : (t.map f).find path = (t.find path).map (map f) := by
  induction path generalizing t with
  | nil =>
    rw [find, find]
    rfl
  | cons k path ih =>
    cases t with
    | leaf a => rw [map]; rfl
    | node members =>
      rw [map, find_cons, find_cons, get_mapMembers]
      cases get members k with
      | none => rfl
      | some t => exact ih t

omit [DecidableEq κ] in
theorem isLeaf_map (f : α → β) (t : Doc κ α) : (t.map f).isLeaf = t.isLeaf := by
  cases t <;> rw [map] <;> rfl

theorem find_of_shape {t : Doc κ α} {u : Doc κ β} (h : t.shape = u.shape) {path : List κ} {v : Doc κ α}
    (hFind : t.find path = some v) : ∃ v', u.find path = some v' ∧ v'.isLeaf = v.isLeaf := by
  have hShape : (u.shape).find path = some v.shape := by
    rw [← h, shape, find_map, hFind, Option.map_some, shape]
  rw [shape, find_map] at hShape
  obtain ⟨v', hFind', hSame⟩ := Option.map_eq_some_iff.mp hShape
  refine ⟨v', hFind', ?_⟩
  rw [← isLeaf_map (fun _ => ()), ← isLeaf_map (fun _ => ()) v, hSame, shape]

omit [DecidableEq κ] in
theorem mapMembers_eq (f : α → β) (members : List (κ × Doc κ α)) :
    mapMembers f members = members.map fun m => (m.1, m.2.map f) := by
  induction members with
  | nil => rw [mapMembers]; rfl
  | cons m members ih =>
    obtain ⟨k, t⟩ := m
    rw [mapMembers, ih]
    rfl

omit [DecidableEq κ] in
theorem shape_node (members : List (κ × Doc κ α)) :
    (node members).shape = node (members.map fun m => (m.1, m.2.shape)) := by
  rw [shape, map, mapMembers_eq]
  rfl

theorem isLeaf_of_shapes {t : Doc κ α} {u : Doc κ β} (h : t.shape = u.shape) {path : List κ} {v : Doc κ α}
    {v' : Doc κ β} (hFind : t.find path = some v) (hFind' : u.find path = some v') : v.isLeaf = v'.isLeaf := by
  obtain ⟨v₁, hFind₁, hKind⟩ := find_of_shape h hFind
  rw [← hKind, Option.some.inj (hFind₁.symm.trans hFind')]

/-- Only the shapes count. -/
theorem Fits.of_shapes {t : Doc κ α} {u : Doc κ β} (h : Fits (some t.shape) u.shape) : Fits (some t) u := by
  intro path v v' hFind hFind'
  rw [← isLeaf_map (fun _ => ()) v, ← isLeaf_map (fun _ => ()) v']
  refine h path _ _ ?_ ?_
  · rw [shape, find_map, hFind, Option.map_some]
  · have hReach : t.find path = some v' := hFind'
    rw [reach, Option.bind_some, shape, find_map, hReach, Option.map_some]

theorem fits_of_shape {t : Doc κ α} {u : Doc κ β} (h : t.shape = u.shape) : Fits (some t) u := by
  intro path v v' hFind hFind'
  exact (isLeaf_of_shapes h hFind' hFind).symm

/-- What fits goes on to fit what has its shape. -/
theorem Fits.merge {target : Option (Doc κ α)} {patch : Doc κ α} {next : Doc κ β} (h : Fits target patch)
    (hDistinct : patch.Distinct) (hShape : patch.shape = next.shape) :
    Fits (some (mergeValue truthy target patch)) next := by
  intro path t u hFind hReach
  obtain ⟨v, hPatch, hKind⟩ := find_of_shape hShape.symm hFind
  obtain ⟨v', hMerged, hSame⟩ := find_mergeValue truthy hDistinct h hPatch
  rw [← hKind, ← hSame, Option.some.inj (hMerged.symm.trans hReach)]

/-- Trees of one shape have leaves at the same paths. -/
theorem leafAt_or_of_shape {t u : Doc κ α} (h : t.shape = u.shape) (path : List κ) (other : Option α) :
    (leafAt (some t) path).or ((leafAt (some u) path).or other) = (leafAt (some t) path).or other := by
  cases hLeaf : leafAt (some t) path with
  | some a => rfl
  | none =>
    cases hOther : leafAt (some u) path with
    | none => rfl
    | some b =>
      have hFind : u.find path = some (leaf b) := by
        rw [leafAt] at hOther
        split at hOther
        · rename_i hReach
          exact Option.some.inj hOther ▸ hReach
        · cases hOther
      obtain ⟨v, hFind', hKind⟩ := find_of_shape h.symm hFind
      cases v with
      | node members => cases hKind
      | leaf a =>
        have hReach : reach (some t) path = some (leaf a) := hFind'
        rw [leafAt, hReach] at hLeaf
        cases hLeaf

/-- Every leaf of the tree stands at its path in the other. -/
def Within (t u : Doc κ α) : Prop := ∀ path a, t.find path = some (leaf a) → u.find path = some (leaf a)

theorem Within.refl (t : Doc κ α) : Within t t := fun _ _ h => h

theorem get_of_mem {members : List (κ × Doc κ α)} (hNames : (members.map Prod.fst).Nodup) {k : κ} {t : Doc κ α}
    (h : (k, t) ∈ members) : get members k = some t := by
  induction members with
  | nil => cases h
  | cons m members ih =>
    rw [List.map_cons, List.nodup_cons] at hNames
    rw [get_cons]
    rcases List.mem_cons.mp h with rfl | hRest
    · rw [if_pos rfl]
    · have hOther : m.1 ≠ k := by
        rintro rfl
        exact hNames.1 (List.mem_map.mpr ⟨_, hRest, rfl⟩)
      rw [if_neg hOther, ih hNames.2 hRest]

theorem Within.node {patch members : List (κ × Doc κ α)} (hNames : (members.map Prod.fst).Nodup)
    (h : ∀ m ∈ patch, ∃ t, (m.1, t) ∈ members ∧ Within m.2 t) : Within (.node patch) (.node members) := by
  intro path a hLeaf
  cases path with
  | nil => cases hLeaf
  | cons k path =>
    obtain ⟨child, hChild, hBelow⟩ := Option.bind_eq_some_iff.mp ((find_cons patch k path).symm.trans hLeaf)
    obtain ⟨t, hMem, hWithin⟩ := h _ (mem_of_get hChild)
    rw [find_cons, get_of_mem hNames hMem]
    exact hWithin path a hBelow

end Doc

end HttpMonitoring.Library.DeepMerge
