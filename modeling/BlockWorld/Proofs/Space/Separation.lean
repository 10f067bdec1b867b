import BlockWorld.Proofs.Space.Rational
/-!
How a cube pushes a box out. There are six ways out, two along each axis (`exits`). A way counts only
if it is shorter than the edge of the cube. Since the edges are equal, a way that does not count is
longer than every way that does, so nothing is lost: the push that is found is the shortest way out
of all (`exists_firstShortest_of_admitted`), and no shorter move along an axis takes the box out.

How the proof goes. The pushes are kept in a list in the order in which they are tried, and the search is a
fold that keeps the shorter of two, the earlier one if they are equal. `FirstShortest` says of a push that it
is what such a fold ends with (`exists_foldl_shorter`, by induction on the list). The program tries only
pushes below the edge; leaving out longer ones does not change the outcome (`FirstShortest.of_filter`). On the
other side stands the geometry, one axis at a time: after a move the boxes overlap until a face of the one has
passed a face of the other (`Overlap.translate_along_iff`), so each push of the list takes the box out
(`Overlap.not_overlap_way`) and no shorter move does (`Overlap.translate_of_short`).
-/
namespace BlockWorld.Space.Box

variable {a b : Box ℚ} {e : ℚ}

/-! ## The shortest push of a list -/

/-- A push of a list that is shorter than those before it, and not longer than those after it. -/
def FirstShortest (pushes : List (Push ℚ)) (p : Push ℚ) : Prop :=
  ∃ before after, pushes = before ++ p :: after ∧ (∀ q ∈ before, p.distance < q.distance)
    ∧ ∀ q ∈ after, p.distance ≤ q.distance

theorem FirstShortest.mem {pushes : List (Push ℚ)} {p : Push ℚ} (h : FirstShortest pushes p) :
    p ∈ pushes := by
  obtain ⟨before, after, rfl, -, -⟩ := h
  simp

theorem FirstShortest.le {pushes : List (Push ℚ)} {p : Push ℚ} (h : FirstShortest pushes p)
    {q : Push ℚ} (hq : q ∈ pushes) : p.distance ≤ q.distance := by
  obtain ⟨before, after, rfl, hbefore, hafter⟩ := h
  rw [List.mem_append, List.mem_cons] at hq
  obtain hq | rfl | hq := hq
  · exact (hbefore q hq).le
  · exact le_rfl
  · exact hafter q hq

/-- What is kept from a push on is the first of the shortest, that push counted as the first. -/
theorem exists_foldl_shorter (pushes : List (Push ℚ)) (q : Push ℚ) :
    ∃ p, pushes.foldl shorter (some q) = some p ∧ FirstShortest (q :: pushes) p := by
  induction pushes generalizing q with
  | nil => exact ⟨q, rfl, [], [], rfl, by simp, by simp⟩
  | cons r pushes ih =>
    by_cases hlt : r.distance < q.distance
    · obtain ⟨p, hfold, hp⟩ := ih r
      refine ⟨p, ?_, ?_⟩
      · rw [List.foldl_cons, shorter, if_pos (lt_eq_true_iff.mpr hlt), hfold]
      · have hpq : p.distance < q.distance := (hp.le List.mem_cons_self).trans_lt hlt
        obtain ⟨before, after, heq, hbefore, hafter⟩ := hp
        exact ⟨q :: before, after, congrArg (q :: ·) heq, List.forall_mem_cons.mpr ⟨hpq, hbefore⟩,
          hafter⟩
    · obtain ⟨p, hfold, before, after, heq, hbefore, hafter⟩ := ih q
      refine ⟨p, ?_, ?_⟩
      · rw [List.foldl_cons, shorter, if_neg (mt lt_eq_true_iff.mp hlt), hfold]
      · -- The new push comes right behind `q`, which is not longer.
        cases before with
        | nil =>
          obtain ⟨rfl, rfl⟩ := List.cons.inj heq
          exact ⟨[], r :: pushes, rfl, by simp, List.forall_mem_cons.mpr ⟨not_lt.mp hlt, hafter⟩⟩
        | cons q' before =>
          obtain ⟨rfl, rfl⟩ := List.cons.inj heq
          obtain ⟨hpq, hbefore⟩ := List.forall_mem_cons.mp hbefore
          have hpr : p.distance < r.distance := hpq.trans_le (not_lt.mp hlt)
          exact ⟨q :: r :: before, after, rfl,
            List.forall_mem_cons.mpr ⟨hpq, List.forall_mem_cons.mpr ⟨hpr, hbefore⟩⟩, hafter⟩

/-- Pushes that are left out do not matter if they are longer than those that are kept. -/
theorem FirstShortest.of_filter {pushes : List (Push ℚ)} {counts : Push ℚ → Bool} {p : Push ℚ}
    (h : FirstShortest (pushes.filter counts) p)
    (hlong : ∀ q ∈ pushes, counts q = false → p.distance < q.distance) :
    FirstShortest pushes p := by
  obtain ⟨before, after, heq, hbefore, hafter⟩ := h
  obtain ⟨front, rest, rfl, rfl, hrest⟩ := List.filter_eq_append_iff.mp heq
  obtain ⟨between, behind, rfl, hskipped, -, rfl⟩ := List.filter_eq_cons_iff.mp hrest
  refine ⟨front ++ between, behind, by simp, fun q hq => ?_, fun q hq => ?_⟩
  · cases hcounts : counts q with
    | true =>
      obtain hq | hq := List.mem_append.mp hq
      · exact hbefore q (List.mem_filter.mpr ⟨hq, hcounts⟩)
      · exact absurd hcounts (hskipped q hq)
    | false =>
      refine hlong q ?_ hcounts
      obtain hq | hq := List.mem_append.mp hq <;> simp [hq]
  · cases hcounts : counts q with
    | true => exact hafter q (List.mem_filter.mpr ⟨hq, hcounts⟩)
    | false => exact (hlong q (by simp [hq]) hcounts).le

/-! ## The six pushes -/

theorem mem_pushes {p : Push ℚ} :
    p ∈ a.pushes b ↔ ∃ i, p = ⟨i, b.max.get i - a.min.get i, false⟩
      ∨ p = ⟨i, a.max.get i - b.min.get i, true⟩ := by
  simp only [pushes, List.mem_flatMap, List.mem_cons, List.not_mem_nil, or_false]
  constructor
  · rintro ⟨i, -, h⟩
    exact ⟨i, h⟩
  · rintro ⟨i, h⟩
    exact ⟨i, by cases i <;> simp [Axis.all], h⟩

/-- The signed length of a push along its axis. -/
def Push.shift (p : Push ℚ) : ℚ := if p.upward then p.distance else -p.distance

theorem Push.abs_shift {p : Push ℚ} (h : 0 < p.distance) : |p.shift| = p.distance := by
  unfold shift
  split
  · exact abs_of_pos h
  · rw [abs_neg, abs_of_pos h]

/-- The ways to move `b` along an axis until it touches `a` from outside: below and above along `x`,
then along `y`, then along `z`. -/
def exits (a b : Box ℚ) : List (Axis × ℚ) :=
  [(.x, -(b.max.x - a.min.x)), (.x, a.max.x - b.min.x),
   (.y, -(b.max.y - a.min.y)), (.y, a.max.y - b.min.y),
   (.z, -(b.max.z - a.min.z)), (.z, a.max.z - b.min.z)]

theorem map_pushes (a b : Box ℚ) :
    (a.pushes b).map (fun p => (p.axis, p.shift)) = a.exits b := rfl

theorem Overlap.distance_pos (h : a.Overlap b) {p : Push ℚ} (hp : p ∈ a.pushes b) :
    0 < p.distance := by
  obtain ⟨i, rfl | rfl⟩ := mem_pushes.mp hp
  · exact sub_pos.mpr (h i).1
  · exact sub_pos.mpr (h i).2

/-! ## Moves along an axis -/

/-- Boxes that overlap go on doing so until a face of the one has passed a face of the other. -/
theorem Overlap.translate_along_iff (h : a.Overlap b) (i : Axis) (s : ℚ) :
    a.Overlap (b.translate (Point.along i s))
      ↔ -(b.max.get i - a.min.get i) < s ∧ s < a.max.get i - b.min.get i := by
  constructor
  · intro hmoved
    have hi := hmoved i
    simp only [get_max_translate, get_min_translate, Point.get_along, if_true] at hi
    constructor <;> linarith [hi.1, hi.2]
  · rintro ⟨hlow, hhigh⟩ j
    by_cases hj : j = i
    · subst hj
      simp only [get_max_translate, get_min_translate, Point.get_along, if_true]
      constructor <;> linarith
    · simpa only [get_max_translate, get_min_translate, Point.get_along, if_neg hj, add_zero]
        using h j

/-- Each of the six pushes takes the box out. -/
theorem Overlap.not_overlap_way (h : a.Overlap b) {p : Push ℚ} (hp : p ∈ a.pushes b) :
    ¬ a.Overlap (b.translate p.way) := by
  show ¬ a.Overlap (b.translate (Point.along p.axis p.shift))
  rw [h.translate_along_iff]
  obtain ⟨i, rfl | rfl⟩ := mem_pushes.mp hp
  · exact fun hmoved => lt_irrefl _ hmoved.1
  · exact fun hmoved => lt_irrefl _ hmoved.2

/-- A move along an axis that is shorter than all pushes does not. -/
theorem Overlap.translate_of_short (h : a.Overlap b) {s : ℚ}
    (hs : ∀ p ∈ a.pushes b, |s| < p.distance) (i : Axis) :
    a.Overlap (b.translate (Point.along i s)) := by
  have hlow := hs _ (mem_pushes.mpr ⟨i, .inl rfl⟩)
  have hhigh := hs _ (mem_pushes.mpr ⟨i, .inr rfl⟩)
  exact (h.translate_along_iff i s).mpr ⟨(abs_lt.mp hlow).1, (abs_lt.mp hhigh).2⟩

/-! ## The push that is found -/

theorem separate_of_not_overlap (h : ¬ a.Overlap b) : a.separate b = none := by
  rw [separate, push?, if_neg (mt (overlaps_iff a b).mp h)]
  rfl

theorem admits_iff (ha : ∀ i, a.extent.get i = e) {p : Push ℚ} :
    a.admits p = true ↔ 0 < p.distance ∧ p.distance < e := by
  rw [admits, ha, Bool.and_eq_true]
  exact and_congr lt_eq_true_iff lt_eq_true_iff

/-- If no push is shorter than the edge of the cube, none is found. -/
theorem separate_of_long (ha : ∀ i, a.extent.get i = e)
    (hlong : ∀ p ∈ a.pushes b, ¬ p.distance < e) : a.separate b = none := by
  have hnone : (a.pushes b).filter a.admits = [] := by
    refine List.filter_eq_nil_iff.mpr fun p hp hadmits => hlong p hp ?_
    exact ((admits_iff ha).mp hadmits).2
  rw [separate, push?, hnone]
  split <;> rfl

/-- If some push is shorter than the edge of the cube, the first of the shortest is found. -/
theorem exists_firstShortest_of_admitted (ha : ∀ i, a.extent.get i = e) (h : a.Overlap b)
    {q : Push ℚ} (hq : q ∈ a.pushes b) (hshort : q.distance < e) :
    ∃ p, a.separate b = some p.way ∧ FirstShortest (a.pushes b) p := by
  have hadmits : q ∈ (a.pushes b).filter a.admits :=
    List.mem_filter.mpr ⟨hq, (admits_iff ha).mpr ⟨h.distance_pos hq, hshort⟩⟩
  obtain ⟨r, pushes, hfilter⟩ := List.exists_cons_of_ne_nil (List.ne_nil_of_mem hadmits)
  obtain ⟨p, hfold, hp⟩ := exists_foldl_shorter pushes r
  rw [← hfilter] at hp
  refine ⟨p, ?_, hp.of_filter fun o ho hlong => ?_⟩
  · rw [separate, push?, if_pos ((overlaps_iff a b).mpr h), hfilter, List.foldl_cons, shorter, hfold]
    rfl
  · -- A push that does not count is at least as long as the edge.
    have hpe : p.distance < e := ((admits_iff ha).mp (List.mem_filter.mp hp.mem).2).2
    refine hpe.trans_le (not_lt.mp fun hoe => ?_)
    rw [(admits_iff ha).mpr ⟨h.distance_pos ho, hoe⟩] at hlong
    cases hlong

theorem exists_short_iff :
    (∃ p ∈ a.pushes b, p.distance < e)
      ↔ ∃ i, b.max.get i - a.min.get i < e ∨ a.max.get i - b.min.get i < e := by
  constructor
  · rintro ⟨p, hp, hlt⟩
    obtain ⟨i, rfl | rfl⟩ := mem_pushes.mp hp
    · exact ⟨i, .inl hlt⟩
    · exact ⟨i, .inr hlt⟩
  · rintro ⟨i, hlt | hlt⟩
    · exact ⟨_, mem_pushes.mpr ⟨i, .inl rfl⟩, hlt⟩
    · exact ⟨_, mem_pushes.mpr ⟨i, .inr rfl⟩, hlt⟩

/-- A cube pushes a box if and only if the two overlap and some way out is shorter than the edge of
the cube. The push then goes along one axis, and it takes the box out, while no shorter move along
any axis does. It is the first of the shortest ways out. -/
theorem separate_cube (a b : Box ℚ) (e : ℚ) (ha : ∀ i, a.extent.get i = e) :
    let short := ∃ i, b.max.get i - a.min.get i < e ∨ a.max.get i - b.min.get i < e
    (¬ (a.Overlap b ∧ short) → a.separate b = none)
      ∧ (a.Overlap b ∧ short →
        ∃ before i t after, a.exits b = before ++ (i, t) :: after
          ∧ a.separate b = some (Point.along i t) ∧ t ≠ 0
          ∧ ¬ a.Overlap (b.translate (Point.along i t))
          ∧ (∀ j s, |s| < |t| → a.Overlap (b.translate (Point.along j s)))
          ∧ (∀ exit ∈ before, |t| < |exit.2|) ∧ ∀ exit ∈ after, |t| ≤ |exit.2|) := by
  intro short
  constructor
  · intro hmiss
    by_cases h : a.Overlap b
    · refine separate_of_long ha fun p hp hlt => hmiss ⟨h, ?_⟩
      exact exists_short_iff.mp ⟨p, hp, hlt⟩
    · exact separate_of_not_overlap h
  · rintro ⟨h, hshort⟩
    obtain ⟨q, hq, hlt⟩ := exists_short_iff.mpr hshort
    obtain ⟨p, hfound, hfirst⟩ := exists_firstShortest_of_admitted ha h hq hlt
    have habs {r : Push ℚ} (hr : r ∈ a.pushes b) : |r.shift| = r.distance :=
      r.abs_shift (h.distance_pos hr)
    have hp : p ∈ a.pushes b := hfirst.mem
    have hleast {r : Push ℚ} (hr : r ∈ a.pushes b) : |p.shift| ≤ r.distance :=
      (habs hp).trans_le (hfirst.le hr)
    obtain ⟨before, after, hsplit, hbefore, hafter⟩ := hfirst
    have hmem {r : Push ℚ} (hr : r ∈ before ∨ r ∈ after) : r ∈ a.pushes b := by
      rw [hsplit, List.mem_append, List.mem_cons]
      tauto
    refine ⟨before.map fun r => (r.axis, r.shift), p.axis, p.shift,
      after.map fun r => (r.axis, r.shift), ?_, hfound, ?_, h.not_overlap_way hp,
      fun j s hs => h.translate_of_short (fun r hr => hs.trans_le (hleast hr)) j, ?_, ?_⟩
    · rw [← map_pushes, hsplit, List.map_append, List.map_cons]
    · rw [← abs_pos, habs hp]
      exact h.distance_pos hp
    · refine List.forall_mem_map.mpr fun r hr => ?_
      rw [habs hp, habs (hmem (.inl hr))]
      exact hbefore r hr
    · refine List.forall_mem_map.mpr fun r hr => ?_
      rw [habs hp, habs (hmem (.inr hr))]
      exact hafter r hr

/-- A box that covers the far half of a cell along all axes is pushed up along the first one. -/
theorem separate_cube_tie :
    let a : Box ℚ := unitCube ⟨0, 0, 0⟩
    let b : Box ℚ := ⟨⟨1 / 2, 1 / 2, 1 / 2⟩, ⟨3 / 2, 3 / 2, 3 / 2⟩⟩
    (∀ i, a.extent.get i = 1) ∧ a.separate b = some ⟨1 / 2, 0, 0⟩ := by
  intro a b
  have ha : ∀ i, a.extent.get i = 1 := get_extent_unitCube ⟨0, 0, 0⟩
  have hexits : a.exits b
      = [(.x, -3 / 2), (.x, 1 / 2), (.y, -3 / 2), (.y, 1 / 2), (.z, -3 / 2), (.z, 1 / 2)] := by
    decide +kernel
  have hoverlap : a.Overlap b := (overlaps_iff a b).mp (by decide +kernel)
  obtain ⟨before, i, t, after, hsplit, hfound, -, -, -, hbefore, hafter⟩ :=
    (separate_cube a b 1 ha).2 ⟨hoverlap, .x, .inr (by decide +kernel)⟩
  rw [hexits] at hsplit
  refine ⟨ha, hfound.trans ?_⟩
  -- The first exit is longer than the second, and none is shorter than the second.
  cases before with
  | nil =>
    obtain ⟨heq, rfl⟩ := List.cons.inj hsplit
    obtain ⟨rfl, rfl⟩ := Prod.mk.inj heq
    exact absurd (hafter _ List.mem_cons_self) (by norm_num)
  | cons first before =>
    cases before with
    | nil =>
      obtain ⟨rfl, rfl⟩ := Prod.mk.inj (List.cons.inj (List.cons.inj hsplit).2).1
      rfl
    | cons second before =>
      obtain ⟨rfl, hrest⟩ := List.cons.inj (List.cons.inj hsplit).2
      have hshorter : |t| < |(1 / 2 : ℚ)| := hbefore (.x, 1 / 2) (by simp)
      have hmem : (i, t) ∈ [(Axis.y, (-3 / 2 : ℚ)), (.y, 1 / 2), (.z, -3 / 2), (.z, 1 / 2)] :=
        hrest ▸ List.mem_append_right before List.mem_cons_self
      simp only [List.mem_cons, Prod.mk.injEq, List.not_mem_nil, or_false] at hmem
      obtain ⟨-, rfl⟩ | ⟨-, rfl⟩ | ⟨-, rfl⟩ | ⟨-, rfl⟩ := hmem <;> norm_num at hshorter

end BlockWorld.Space.Box
