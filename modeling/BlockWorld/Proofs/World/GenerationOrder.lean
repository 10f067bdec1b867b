import BlockWorld.Proofs.World.Faces
import BlockWorld.Proofs.World.Generating
/-!
The order in which chunks are filled. A chunk writes the same blocks whenever it is filled
(`Landscape.lastWrite?`), and later writes replace earlier ones. So after filling several chunks
each position holds what the last of them has put there (`World.kind?_foldl_generateChunk`), and the
order matters exactly where two chunks put different blocks. That happens at leaves only: a crown
that reaches over the border of its chunk meets a block of the neighbour.

How the proof goes. A fold of fillings is read from its end: the last chunk that writes to a position decides
(`kind?_foldl_generateChunk`), which is a search through the chunks from the last to the first. Two orders of
the same chunks are two orders of the candidates of such a search, and they choose differently only if two
candidates differ (`exists_of_findSome?_ne`). Two chunks that write different blocks to one position do so
through leaves (`Landscape.leaves_of_conflict`).

That the order does matter is shown by a forest with higher trees outside the first chunk (`unevenForest`),
where the crown of a low tree meets the trunk of a high one at the border (`generateChunks_order_matters`).
-/
namespace BlockWorld

open Grid Block Terrain

/-- The block that a chunk leaves at a position: that of its last write there. -/
def Terrain.Landscape.lastWrite? (g : Landscape) (c q : Coord) : Option BlockId :=
  ((g.chunkWrites c).reverse.find? fun write => write.1 = q).map (·.2)

namespace Terrain.Landscape

variable {g : Landscape} {c q : Coord}

theorem mem_chunkWrites_of_lastWrite? {id : BlockId} (h : g.lastWrite? c q = some id) :
    (q, id) ∈ g.chunkWrites c := by
  obtain ⟨⟨p, id'⟩, hfind, rfl⟩ := Option.map_eq_some_iff.mp h
  have hp : p = q := by simpa using List.find?_some hfind
  subst hp
  exact List.mem_reverse.mp (List.mem_of_find?_eq_some hfind)

theorem not_mem_chunkWrites_of_lastWrite? (h : g.lastWrite? c q = none) (id : BlockId) :
    (q, id) ∉ g.chunkWrites c := by
  intro hmem
  rw [lastWrite?, Option.map_eq_none_iff, List.find?_eq_none] at h
  exact absurd (decide_eq_true rfl) (h (q, id) (List.mem_reverse.mpr hmem))

theorem lastWrite?_eq_some {id : BlockId} (h : (q, id) ∈ g.chunkWrites c)
    (honly : ∀ id', (q, id') ∈ g.chunkWrites c → id' = id) : g.lastWrite? c q = some id := by
  cases hlast : g.lastWrite? c q with
  | none => exact absurd h (not_mem_chunkWrites_of_lastWrite? hlast id)
  | some id' => rw [honly id' (mem_chunkWrites_of_lastWrite? hlast)]

end Terrain.Landscape

/-! ## Choosing from a list -/

/-- Two orders of the same candidates choose differently only if two candidates differ. -/
theorem exists_of_findSome?_ne {α β : Type} {f : α → Option β} {xs ys : List α}
    (hmem : ∀ a, a ∈ xs ↔ a ∈ ys) (hne : xs.findSome? f ≠ ys.findSome? f) :
    ∃ a ∈ xs, ∃ b ∈ xs, ∃ u v, f a = some u ∧ f b = some v ∧ u ≠ v
      ∧ xs.findSome? f = some u ∧ ys.findSome? f = some v := by
  have hnone : xs.findSome? f = none ↔ ys.findSome? f = none := by
    simp only [List.findSome?_eq_none_iff, hmem]
  cases hx : xs.findSome? f with
  | none => exact absurd (hx.trans (hnone.mp hx).symm) hne
  | some u =>
    cases hy : ys.findSome? f with
    | none => exact absurd ((hnone.mpr hy).trans hy.symm) hne
    | some v =>
      obtain ⟨a, ha, hu⟩ := List.exists_of_findSome?_eq_some hx
      obtain ⟨b, hb, hv⟩ := List.exists_of_findSome?_eq_some hy
      have huv : u ≠ v := by
        rintro rfl
        exact hne (hx.trans hy.symm)
      exact ⟨a, ha, b, (hmem b).mpr hb, u, v, hu, hv, huv, rfl, rfl⟩

namespace World

variable {w : World} {g : Landscape}

/-! ## The last write counts -/

theorem kind?_foldl_setBlock (ho : w.Owned) {writes : List Write} (hair : ∀ e ∈ writes, e.2 ≠ air)
    (q : Coord) :
    (writes.foldl (fun w (p, id) => w.setBlock p id) w).kind? q
      = ((writes.reverse.find? fun write => write.1 = q).map (·.2)).or (w.kind? q) := by
  induction writes generalizing w with
  | nil => rfl
  | cons write writes ih =>
    obtain ⟨p, id⟩ := write
    have hid : id ≠ air := hair (p, id) List.mem_cons_self
    rw [List.foldl_cons, ih ((edits_setBlock w p id).owned ho) fun e he =>
      hair e (List.mem_cons_of_mem _ he), kind?_setBlock ho, if_neg hid, List.reverse_cons,
      List.find?_append]
    by_cases hq : q = p
    · cases writes.reverse.find? fun write => write.1 = q <;> simp [hq]
    · have hp : p ≠ q := fun h => hq h.symm
      cases writes.reverse.find? fun write => write.1 = q <;> simp [hq, hp]

theorem kind?_generateChunk (ho : w.Owned) {c : Coord} (hc : w.isGenerated c = false) (q : Coord) :
    (generateChunk .world g c w).1.kind? q = (g.lastWrite? c q).or (w.kind? q) := by
  have hair : ∀ e ∈ g.chunkWrites c, e.2 ≠ air :=
    fun e he => Landscape.ne_air_of_mem_chunkWrites (p := e.1) he
  rw [kind?, block?_generateChunk g ho hc]
  exact kind?_foldl_setBlock ho hair q

/-- Of several chunks, the last one with a block for a position decides. -/
theorem kind?_foldl_generateChunk (ho : w.Owned) {cs : List Coord} (hcs : cs.Nodup)
    (hnew : ∀ c ∈ cs, w.isGenerated c = false) (q : Coord) :
    (cs.foldl (fun w c => (generateChunk .world g c w).1) w).kind? q
      = (cs.reverse.findSome? (g.lastWrite? · q)).or (w.kind? q) := by
  induction cs generalizing w with
  | nil => rfl
  | cons c rest ih =>
    obtain ⟨hc, hrest⟩ := List.nodup_cons.mp hcs
    have hnew' : ∀ c' ∈ rest, (generateChunk .world g c w).1.isGenerated c' = false := by
      intro c' hc'
      have hne : c' ≠ c := fun h => hc (h ▸ hc')
      rw [isGenerated_generateChunk g ho, hnew c' (List.mem_cons_of_mem c hc')]
      simp [hne]
    rw [List.foldl_cons, ih ((edits_generateChunk g c w).owned ho) hrest hnew',
      kind?_generateChunk ho (hnew c List.mem_cons_self), List.reverse_cons, List.findSome?_append,
      Option.or_assoc]
    congr 1
    cases hlast : g.lastWrite? c q <;> simp [hlast]

/-! ## Orders -/

/-- What stands at a position after some chunks have been filled in an empty world. -/
theorem kind?_generateChunks_new (seed : Int64) (id : String) (createdAt : Data.Timestamp)
    (compression : String) {cs : List Coord} (hcs : cs.Nodup) (q : Coord) :
    (generateChunks .world g [] cs (.new seed id createdAt compression)).target.kind? q
      = cs.reverse.findSome? (g.lastWrite? · q) := by
  have hempty : (new seed id createdAt compression).kind? q = none := by
    rw [kind?, block?_new]
    rfl
  rw [generateChunks_world, kind?_foldl_generateChunk (owned_new seed id createdAt compression) hcs
    (fun c _ => isGenerated_new seed id createdAt compression c), hempty, Option.or_none]

theorem kind?_generateChunks_new_singleton (seed : Int64) (id : String) (createdAt : Data.Timestamp)
    (compression : String) (c q : Coord) :
    (generateChunks .world g [] [c] (.new seed id createdAt compression)).target.kind? q
      = g.lastWrite? c q := by
  rw [kind?_generateChunks_new seed id createdAt compression (List.nodup_singleton c)]
  cases hlast : g.lastWrite? c q <;> simp [hlast]

/-- Some chunks are filled one by one in an empty world. At every position stands the block of the
last chunk that has one for it, as it stands there when that chunk is filled alone. So all orders
agree at a position exactly if all the chunks that have a block for it have the same one. Where two
orders differ, both have a block, one of them is leaves of a tree, and the other is not. -/
theorem generateChunks_new_order (seed : Int64) (id : String) (createdAt : Data.Timestamp)
    (compression : String) (g : Landscape) (hheight : ∀ x z, 1 ≤ g.height x z) (xs : List Coord)
    (hxs : xs.Nodup) (q : Coord) :
    let filled (cs : List Coord) : World :=
      (generateChunks .world g [] cs (.new seed id createdAt compression)).target
    (∀ ys, ys.Perm xs →
        (filled ys).kind? q = ys.reverse.findSome? fun c => (filled [c]).kind? q)
      ∧ ((∀ ys zs, ys.Perm xs → zs.Perm xs → (filled ys).kind? q = (filled zs).kind? q)
        ↔ ∀ c ∈ xs, ∀ d ∈ xs, ∀ a b,
          (filled [c]).kind? q = some a → (filled [d]).kind? q = some b → a = b)
      ∧ ∀ ys zs, ys.Perm xs → zs.Perm xs → (filled ys).kind? q ≠ (filled zs).kind? q →
        ∃ c ∈ xs, ∃ d ∈ xs, ∃ a, g.TreeAt c q leaves ∧ (filled [c]).kind? q = some leaves
          ∧ (filled [d]).kind? q = some a ∧ a ≠ leaves
          ∧ ((filled ys).kind? q = some leaves ∧ (filled zs).kind? q = some a
            ∨ (filled ys).kind? q = some a ∧ (filled zs).kind? q = some leaves) := by
  intro filled
  have halone (c : Coord) : (filled [c]).kind? q = g.lastWrite? c q :=
    kind?_generateChunks_new_singleton seed id createdAt compression c q
  have hfilled {ys : List Coord} (hys : ys.Perm xs) :
      (filled ys).kind? q = ys.reverse.findSome? (g.lastWrite? · q) :=
    kind?_generateChunks_new seed id createdAt compression (hys.nodup_iff.mpr hxs) q
  have hmem {ys zs : List Coord} (hys : ys.Perm xs) (hzs : zs.Perm xs) (c : Coord) :
      c ∈ ys.reverse ↔ c ∈ zs.reverse := by
    rw [List.mem_reverse, List.mem_reverse, hys.mem_iff, hzs.mem_iff]
  simp only [halone]
  refine ⟨fun ys hys => hfilled hys, ⟨?_, ?_⟩, ?_⟩
  · -- Each of the two chunks is the last one in some order.
    intro hsame c hc d hd a b ha hb
    have hlast {c : Coord} (hc : c ∈ xs) : (xs.erase c ++ [c]).Perm xs :=
      (List.perm_append_singleton c _).trans (List.perm_cons_erase hc).symm
    have heq := hsame _ _ (hlast hc) (hlast hd)
    rw [hfilled (hlast hc), hfilled (hlast hd)] at heq
    simpa [ha, hb] using heq
  · intro hagree ys zs hys hzs
    rw [hfilled hys, hfilled hzs]
    by_contra hne
    obtain ⟨c, hc, d, hd, a, b, ha, hb, hab, -, -⟩ := exists_of_findSome?_ne (hmem hys hzs) hne
    rw [List.mem_reverse, hys.mem_iff] at hc hd
    exact hab (hagree c hc d hd a b ha hb)
  · intro ys zs hys hzs hne
    rw [hfilled hys, hfilled hzs] at hne ⊢
    obtain ⟨c, hc, d, hd, a, b, ha, hb, hab, hfirst, hsecond⟩ :=
      exists_of_findSome?_ne (hmem hys hzs) hne
    rw [List.mem_reverse, hys.mem_iff] at hc hd
    obtain ⟨rfl, htree⟩ | ⟨rfl, htree⟩ := Landscape.leaves_of_conflict hheight
      (Landscape.mem_chunkWrites_of_lastWrite? ha) (Landscape.mem_chunkWrites_of_lastWrite? hb) hab
    · exact ⟨c, hc, d, hd, b, htree, ha, hb, hab.symm, .inl ⟨hfirst, hsecond⟩⟩
    · exact ⟨d, hd, c, hc, a, htree, hb, ha, hab, .inr ⟨hfirst, hsecond⟩⟩

/-! ## Two trees at a border -/

/-- Flat land with a tree in every column, higher ones outside the first chunk. -/
def unevenForest : Landscape :=
  { flatForest with
    trunks := fun c =>
      if c = .origin then flatForest.trunks c else Array.replicate 256 (some (Fin.last 2)) }

theorem one_le_height_unevenForest (x z : Int64) : 1 ≤ unevenForest.height x z := by
  show (1 : Int64) ≤ 4
  decide

/-- The heights at which trees of the uneven forest have logs and leaves. -/
theorem unevenForest_heights {c q : Coord} {id : BlockId} (h : unevenForest.TreeAt c q id) :
    ∃ extra : Fin 3, extra = (if c = .origin then 0 else 2)
      ∧ (id = log ∧ (∃ n < 3 + extra.val, q.y = 5 + Int64.ofNat n)
        ∨ id = leaves
          ∧ ∃ f : Face, f ≠ .negY ∧ q.y = 5 + Int64.ofNat (3 + extra.val) + f.offset.y) := by
  obtain ⟨base, extra, ⟨i, hi, -, hextra, rfl⟩, htree⟩ := h
  refine ⟨extra, ?_, ?_⟩
  · by_cases hc : c = .origin
    · simpa [unevenForest, flatForest, hi, hc, eq_comm] using hextra
    · simpa [unevenForest, hi, hc, eq_comm] using hextra
  · cases htree with
    | trunk n hn => exact .inl ⟨rfl, n, hn, rfl⟩
    | top => exact .inr ⟨rfl, .posX, by decide, (Int64.add_zero _).symm⟩
    | side f hf => exact .inr ⟨rfl, f, hf, rfl⟩

/-- At the border of the first chunk, the crown of a low tree meets the trunk of a high one. -/
theorem lastWrite?_unevenForest :
    unevenForest.lastWrite? .origin ⟨16, 8, 0⟩ = some leaves
      ∧ unevenForest.lastWrite? ⟨1, 0, 0⟩ ⟨16, 8, 0⟩ = some log := by
  have hground : ∀ c id, ¬ unevenForest.GroundAt c ⟨16, 8, 0⟩ id := by
    intro c id h
    obtain ⟨-, hsolid, hid⟩ := Landscape.GroundAt.eq_blockAt h
    exact hsolid (hid.trans (Landscape.blockAt_eq_air _ (by decide) (by decide) (by decide)))
  constructor
  · have hside : TreeCell ⟨15, 5, 0⟩ 0 ⟨16, 8, 0⟩ leaves := .side .posX (by decide)
    have htree : unevenForest.TreeAt .origin ⟨16, 8, 0⟩ leaves :=
      ⟨⟨15, 5, 0⟩, 0, ⟨240, by decide, by decide, by simp [unevenForest, flatForest], by decide⟩,
        hside⟩
    refine Landscape.lastWrite?_eq_some (Landscape.mem_chunkWrites.mpr (.inr htree)) ?_
    intro id hmem
    obtain hmem | hmem := Landscape.mem_chunkWrites.mp hmem
    · exact absurd hmem (hground _ id)
    · obtain ⟨extra, rfl, ⟨-, n, hn, hy⟩ | ⟨hid, -⟩⟩ := unevenForest_heights hmem
      · have hlow : ∀ n : Fin 3, (8 : Int64) ≠ 5 + Int64.ofNat n.val := by decide
        exact absurd hy (hlow ⟨n, hn⟩)
      · exact hid
  · have htrunk : TreeCell ⟨16, 5, 0⟩ 2 ⟨16, 8, 0⟩ log := .trunk 3 (by decide)
    have htree : unevenForest.TreeAt ⟨1, 0, 0⟩ ⟨16, 8, 0⟩ log :=
      ⟨⟨16, 5, 0⟩, 2, ⟨0, by decide, by decide, by simp [unevenForest, Coord.origin], by decide⟩,
        htrunk⟩
    refine Landscape.lastWrite?_eq_some (Landscape.mem_chunkWrites.mpr (.inr htree)) ?_
    intro id hmem
    obtain hmem | hmem := Landscape.mem_chunkWrites.mp hmem
    · exact absurd hmem (hground _ id)
    · obtain ⟨extra, rfl, ⟨hid, -⟩ | ⟨-, f, hf, hy⟩⟩ := unevenForest_heights hmem
      · exact hid
      · have hhigh : ∀ f : Face, f ≠ .negY → (8 : Int64) ≠ 5 + Int64.ofNat 5 + f.offset.y := by
          intro f hf
          cases f with
          | negY => exact absurd rfl hf
          | _ => decide
        exact absurd hy (hhigh f hf)

/-- At their border, the two orders of two neighbours do not agree. -/
theorem generateChunks_new_order_border :
    let xs : List Coord := [.origin, ⟨1, 0, 0⟩]
    let filled (cs : List Coord) : World :=
      (generateChunks .world unevenForest [] cs (.new 1 "" .zero "")).target
    (∀ x z, 1 ≤ unevenForest.height x z) ∧ xs.Nodup
      ∧ ¬ ∀ ys zs, ys.Perm xs → zs.Perm xs →
        (filled ys).kind? ⟨16, 8, 0⟩ = (filled zs).kind? ⟨16, 8, 0⟩ := by
  intro xs filled
  have hxs : xs.Nodup := by decide
  have horder := generateChunks_new_order 1 "" .zero "" unevenForest one_le_height_unevenForest xs
    hxs ⟨16, 8, 0⟩
  refine ⟨one_le_height_unevenForest, hxs, fun hsame => ?_⟩
  have hagree := horder.2.1.mp hsame .origin (by decide) ⟨1, 0, 0⟩ (by decide)
  simp only [kind?_generateChunks_new_singleton, lastWrite?_unevenForest] at hagree
  exact absurd (hagree _ _ rfl rfl) (by decide)

/-- A log stands at the border if the chunk of the high trees is filled last, and leaves are there
if the other one is. -/
theorem generateChunks_order_matters :
    let filled (cs : List Coord) : World :=
      (generateChunks .world unevenForest [] cs (.new 1 "" .zero "")).target
    (∀ x z, 1 ≤ unevenForest.height x z)
      ∧ (filled [.origin, ⟨1, 0, 0⟩]).kind? ⟨16, 8, 0⟩ = some log
      ∧ (filled [⟨1, 0, 0⟩, .origin]).kind? ⟨16, 8, 0⟩ = some leaves := by
  obtain ⟨hlow, hhigh⟩ := lastWrite?_unevenForest
  refine ⟨one_le_height_unevenForest, ?_, ?_⟩
  · rw [kind?_generateChunks_new 1 "" .zero "" (by decide)]
    simp [hhigh]
  · rw [kind?_generateChunks_new 1 "" .zero "" (by decide)]
    simp [hlow]

end World

end BlockWorld
