import Mathlib
import BlockWorld.Proofs.ChunkCodec
import BlockWorld.Proofs.Number.Ticks
import BlockWorld.Proofs.World.Faces
/-!
Damages stay short of the breaking point. Four things write damages: digging, which breaks the block
from one up and brings anything below zero to zero, new blocks, new chunks, and bytes that are read.
None of them leaves a damage below zero or from one up (`Unbroken`), whatever the strength and the
hardness are. A damage that is a number is written as the number of whole steps of 1/256 that it has
(`le_quantizeDamage_iff`), so it never comes out as zero by wrapping around.

What is not a number is neither below zero nor from one up, and so it passes the test for breaking and
both tests of the range. Once such a damage is there it stays, and a save has zero for it
(`quantizeDamage_of_isNaN`). It gets there only from a strength or a hardness that is no number, or from
infinite ones (`isNaN_of_strike`). Nothing keeps a type from having such a hardness (`dig_loses_damage`).
-/
namespace BlockWorld

open Grid Block Number

/-! ## Damages -/

/-- A damage of a block that has not broken. What is not a number passes too. -/
structure Unbroken (d : Float32) : Prop where
  nonneg : ¬ d < 0
  below : ¬ d ≥ 1

theorem unbroken_zero : Unbroken 0 := ⟨by decide +kernel, by decide +kernel⟩

/-- The upper bound of the range is never used for a damage that is not from one up. -/
theorem unbroken_clampDamage {d : Float32} (h : ¬ d ≥ 1) : Unbroken (Chunk.clampDamage d) := by
  unfold Chunk.clampDamage
  split
  · exact unbroken_zero
  · rename_i hnonneg
    split
    · rename_i habove
      exact absurd (single_le_of_lt habove) h
    · exact ⟨hnonneg, h⟩

theorem ticks?_damageOfByte_ofNat :
    ∀ b : Fin 256, ticks? (damageOfByte (UInt8.ofNat b.val)) = some (b.val * 2 ^ 141) := by
  decide +kernel

theorem ticks?_damageOfByte (b : UInt8) : ticks? (damageOfByte b) = some (b.toNat * 2 ^ 141) := by
  have hb := ticks?_damageOfByte_ofNat ⟨b.toNat, b.toNat_lt⟩
  rwa [UInt8.ofNat_toNat] at hb

theorem unbroken_damageOfByte (b : UInt8) : Unbroken (damageOfByte b) where
  nonneg := by
    rw [lt_iff_of_ticks? (ticks?_damageOfByte b) ticks?_zero]
    omega
  below := by
    have hb := b.toNat_lt
    rw [ge_iff_le, le_iff_of_ticks? ticks?_one (ticks?_damageOfByte b)]
    omega

/-- A damage below one is written as the number of its whole steps. -/
theorem toNat_quantizeDamage {d : Float32} {t : Nat} (hd : ticks? d = some t) (ht : t < 2 ^ 149) :
    (quantizeDamage d).toNat = t / 2 ^ 141 := by
  have hsteps := ticks?_mul_256 hd ht
  have hnonneg : ¬ d * 256 < 0 := by
    rw [lt_iff_of_ticks? hsteps ticks?_zero]
    omega
  rw [quantizeDamage]
  simp only [hnonneg, if_false]
  rw [UInt64.toNat_toUInt8, toNat_toUInt64_of_ticks? hsteps (by omega)]
  omega

/-- What is not a number is written as zero. -/
theorem quantizeDamage_of_notANumber {d : Float32} (hd : d.toModel.unpack = .notANumber) :
    quantizeDamage d = 0 := by
  have hsteps := unpack_mul_of_notANumber hd 256
  have hnonneg : ¬ d * 256 < 0 := by
    rw [lt_iff_compare, Float32.Model.compare, hsteps]
    simp [Float.Model.UnpackedFloat.compare]
  have hwhole : (d * 256).toUInt64 = 0 := by
    change (d * 256).toModel.unpack.toUInt64 = 0
    rw [hsteps]
    rfl
  simp [quantizeDamage, hnonneg, hwhole]

theorem quantizeDamage_of_isNaN {d : Float32} (hd : d.isNaN = true) : quantizeDamage d = 0 :=
  quantizeDamage_of_notANumber ((isNaN_iff d).mp hd)

/-- A damage that is a number lies in the range. -/
theorem Unbroken.range {d : Float32} (hd : Unbroken d) (hnumber : d.isNaN = false) : 0 ≤ d ∧ d < 1 := by
  rcases ticks?_of_range hd.nonneg hd.below with hnan | ⟨t, ht, hbelow⟩
  · rw [(isNaN_iff d).mpr hnan] at hnumber
    cases hnumber
  · rw [le_iff_of_ticks? ticks?_zero ht, lt_iff_of_ticks? ht ticks?_one]
    exact ⟨Nat.zero_le t, hbelow⟩

/-- The clamp lets through what is not a number, and makes none. -/
theorem isNaN_clampDamage (d : Float32) : (Chunk.clampDamage d).isNaN = d.isNaN := by
  unfold Chunk.clampDamage
  cases hd : d.isNaN with
  | true =>
    have hnan := (isNaN_iff d).mp hd
    have hlow : ¬ d < 0 := by
      rw [lt_iff_compare, Float32.Model.compare, hnan]
      simp [Float.Model.UnpackedFloat.compare]
    have hhigh : ¬ d > 1 := fun h => not_le_of_notANumber hnan (single_le_of_lt h)
    rw [if_neg hlow, if_neg hhigh, hd]
  | false =>
    split
    · rfl
    · split
      · rfl
      · exact hd

/-- The byte of a damage counts its whole steps: it is the largest whose damage is not above. -/
theorem le_quantizeDamage_iff {d : Float32} (hd : Unbroken d) {b : UInt8} (hb : 0 < b) :
    b ≤ quantizeDamage d ↔ damageOfByte b ≤ d := by
  rcases ticks?_of_range hd.nonneg hd.below with hnan | ⟨t, ht, hbelow⟩
  · have hle : ¬ damageOfByte b ≤ d := not_le_of_notANumber hnan
    rw [quantizeDamage_of_notANumber hnan]
    simp only [hle, iff_false]
    exact UInt8.not_le.mpr hb
  · rw [UInt8.le_iff_toNat_le, toNat_quantizeDamage ht hbelow,
      le_iff_of_ticks? (ticks?_damageOfByte b) ht, Nat.le_div_iff_mul_le (Nat.two_pow_pos _)]

/-! ## Chunks -/

/-- A chunk without a damage from one up or below zero, in air as well as in blocks. -/
def Chunk.Intact (c : Chunk) : Prop := ∀ l, Unbroken (c.content l).damage

namespace Chunk.Intact

variable {c c' : Chunk}

theorem of_content (h : c.Intact) (hsame : ∀ l, c'.content l = c.content l) : c'.Intact := by
  intro l
  rw [hsame]
  exact h l

theorem empty : Chunk.empty.Intact := by
  intro l
  rw [content_empty]
  exact unbroken_zero

theorem setBlock (h : c.Intact) (l : Local) (id : BlockId) : (c.setBlock l id).Intact := by
  intro l'
  rw [content_setBlock]
  split
  · exact unbroken_zero
  · exact h l'

theorem setDamage (h : c.Intact) (l : Local) {d : Float32} (hd : ¬ d ≥ 1) :
    (c.setDamage l d).Intact := by
  intro l'
  rw [content_setDamage]
  split
  · exact unbroken_clampDamage hd
  · exact h l'

theorem decodeFrom (data : ByteArray) (start : Nat) : (Chunk.decodeFrom data start).Intact := by
  intro l
  rw [content, cell_decodeFrom]
  exact unbroken_damageOfByte _

end Chunk.Intact

/-! ## Worlds -/

namespace World

/-- A block that holds has a damage short of one, whatever the strength and the hardness are. -/
theorem not_ge_of_strike {r : Registry} {block : Option Cell} {amount damage : Float32}
    (h : strike r block amount = .damaged damage) : ¬ damage ≥ 1 := by
  unfold strike at h
  split at h
  · cases h
  · simp only at h
    split at h
    · cases h
    · split at h
      · cases h
      · rename_i hholds
        obtain rfl := Strike.damaged.inj h
        exact hholds

/-- Where a damage comes from that is not a number. -/
theorem isNaN_of_strike {r : Registry} {b : Cell} {amount damage : Float32} (hb : Unbroken b.damage)
    (h : strike r (some b) amount = .damaged damage) (hnan : damage.isNaN = true) :
    b.damage.isNaN = true ∨ amount.isNaN = true ∨ (r.hardness b.kind).isNaN = true
      ∨ amount.isInf = true ∧ (r.hardness b.kind).isInf = true := by
  unfold strike at h
  simp only at h
  split at h
  · cases h
  · rename_i hdigs
    split at h
    · cases h
    · obtain rfl := Strike.damaged.inj h
      rcases isNaN_of_add hnan with hbefore | hquotient | ⟨hinf, -⟩
      · exact .inl hbefore
      · rcases isNaN_of_div hquotient with hamount | hhardness | hinf | ⟨s, hzero⟩
        · exact .inr (.inl hamount)
        · exact .inr (.inr (.inl hhardness))
        · exact .inr (.inr (.inr hinf))
        · -- Nothing is dug with a strength of zero.
          refine absurd (.inl ?_) hdigs
          have hticks : ticks? amount = some 0 := by rw [ticks?, hzero]
          rw [le_iff_of_ticks? hticks ticks?_zero]
      · obtain ⟨s, hs⟩ := (isInf_iff _).mp hinf
        rcases ticks?_of_range hb.nonneg hb.below with hnone | ⟨t, ht, -⟩
        · exact .inl ((isNaN_iff _).mpr hnone)
        · rw [ticks?, hs] at ht
          cases ht

/-- A world of such chunks. -/
def Intact (w : World) : Prop := ∀ c d, w.chunk? c = some d → d.chunk.Intact

variable {w w' : World}

namespace Intact

theorem of_chunk?_eq (h : w.Intact) (hsame : ∀ c, w'.chunk? c = w.chunk? c) : w'.Intact := by
  intro c d hd
  rw [hsame] at hd
  exact h c d hd

theorem of_sameStorage (h : w.Intact) (hs : w.SameStorage w') : w'.Intact :=
  h.of_chunk?_eq hs.chunk?_eq

section Keeping

variable (ho : w.Owned) (hw : w.Intact)
include ho hw

theorem ensureChunk (c : Coord) : (w.ensureChunk c).2.Intact := by
  intro c' d hd
  rw [chunk?_ensureChunk ho] at hd
  split at hd
  · obtain rfl := Option.some.inj hd
    cases hc : w.chunk? c with
    | none => exact Chunk.Intact.empty
    | some d => exact hw c d hc
  · exact hw c' d hd

/-- A change of one chunk keeps a world intact if it keeps the chunk so. -/
theorem modifySlot {c : Coord} {h : Nat} (hh : w.handle? c = some h) {f : ChunkData → ChunkData}
    (hf : (w.arena.slot h).chunk.Intact → (f (w.arena.slot h)).chunk.Intact) :
    (w.modifySlot h f).Intact := by
  have hslot := ho.chunk?_of_handle? hh
  intro c' d hd
  rw [chunk?_modifySlot ho hh, hslot] at hd
  split at hd
  · obtain rfl := Option.some.inj hd
    exact hf (hw c _ hslot)
  · exact hw c' d hd

theorem reachChange (c : Coord) {f : ChunkData → ChunkData}
    (hf : ∀ d : ChunkData, d.chunk.Intact → (f d).chunk.Intact) :
    ((w.ensureChunk c).2.modifySlot (w.ensureChunk c).1 f).Intact :=
  (hw.ensureChunk ho c).modifySlot (ho.ensureChunk c) (w.handle?_ensureChunk c) (hf _)

theorem markChunk (c : Coord) (priority : Int64) : (w.markChunk c priority).Intact :=
  hw.reachChange ho c (f := fun d => { d with priority }) fun _ hd => hd

theorem markGenerated (c : Coord) : (w.markGenerated c).Intact :=
  hw.reachChange ho c (f := fun d => { d with generated := true }) fun _ hd => hd

theorem forgetFaces (p : Coord) : (w.forgetFaces p).Intact := by
  rw [World.forgetFaces]
  cases hh : w.handle? p.parent with
  | none => exact hw
  | some h =>
    refine hw.modifySlot ho hh fun hslot => hslot.of_content fun l => ?_
    exact Chunk.content_resetFaces _ p.place l

/-- What keeps worlds intact one at a time does so one after the other. -/
theorem foldl {α : Type} {f : World → α → World}
    (hf : ∀ (u : World) (a : α), u.Owned → u.Intact → (f u a).Owned ∧ (f u a).Intact)
    (l : List α) : (l.foldl f w).Owned ∧ (l.foldl f w).Intact :=
  List.foldlRecOn (motive := fun u : World => u.Owned ∧ u.Intact) l f ⟨ho, hw⟩
    fun u hu a _ => hf u a hu.1 hu.2

theorem refresh (p : Coord) : (w.refresh p).Intact := by
  rw [World.refresh]
  exact (hw.foldl ho (fun u q hu hiu => ⟨(edits_forgetFaces u q).owned hu, hiu.forgetFaces hu q⟩)
    (surroundings p)).2

theorem setBlock (p : Coord) (id : BlockId) : (w.setBlock p id).Intact := by
  let f : ChunkData → ChunkData := fun d =>
    { d with chunk := d.chunk.setBlock p.place id, lastTouched := w.tick }
  let v := (w.ensureChunk p.parent).2.modifySlot (w.ensureChunk p.parent).1 f
  have hv : v.Owned :=
    (ho.ensureChunk p.parent).modifySlot_of_handle? (w.handle?_ensureChunk p.parent) f
  have hwritten : v.Intact := hw.reachChange ho p.parent fun d hd => hd.setBlock p.place id
  have hcounted : v.SameStorage { v with gauges := v.gauges.blockWritten } := ⟨rfl, rfl⟩
  exact (hwritten.of_sameStorage hcounted).refresh (hcounted.owned hv) p

/-- Digging writes only damages that did not break the block. -/
theorem damageBlock (r : Registry) (p : Coord) (amount : Float32) :
    (w.damageBlock r p amount).2.Intact := by
  rw [World.damageBlock]
  cases hstrike : strike r (w.block? p) amount with
  | none => exact hw
  | broken => exact (hw.setBlock ho p air).of_sameStorage (sameStorage_note _ _)
  | damaged damage =>
    cases hh : w.handle? p.parent with
    | none => exact hw
    | some h =>
      exact hw.modifySlot ho hh fun hslot => hslot.setDamage p.place (not_ge_of_strike hstrike)

theorem visibleFaces (r : Registry) (p : Coord) : (w.visibleFaces r p).2.Intact := by
  rw [World.visibleFaces]
  cases hh : w.handle? p.parent with
  | none => exact hw
  | some h =>
    refine hw.modifySlot ho hh fun hslot => hslot.of_content fun l => ?_
    exact Chunk.content_visibleFaces r _ p.place _ _ l

theorem markCached (c : Coord) : (w.markCached c).Intact := by
  rw [World.markCached]
  cases hh : w.handle? c with
  | none => exact hw
  | some h => exact hw.modifySlot ho hh fun hslot => hslot

theorem unload (c : Coord) : (w.unload c).2.Intact := by
  intro c' d hd
  rw [chunk?_unload ho] at hd
  split at hd
  · cases hd
  · exact hw c' d hd

/-- A load that fails leaves the chunks as they are; otherwise all chunks come from bytes. -/
theorem loadFrom (source : Save.Source) : (w.loadFrom source).2.Intact := by
  cases h : parseSave source with
  | error e => exact hw.of_sameStorage (loadFrom_of_error w h).2.storage
  | ok save =>
    intro c d hd
    rw [chunk?_eq_chunkAt, chunkAt_loadFrom ho h, Option.bind_eq_some_iff] at hd
    obtain ⟨p, -, hd⟩ := hd
    rw [ParsedMegachunk.chunk?, Megachunk.recordedChunk?, Option.map_eq_some_iff] at hd
    obtain ⟨r, -, rfl⟩ := hd
    exact Chunk.Intact.decodeFrom p.data r.cellsAt

theorem ask (q : Question) : (q.apply w).Intact := by
  cases q with
  | refresh p => exact hw.refresh ho p
  | visibleFaces r p => exact hw.visibleFaces ho r p
  | block? p => exact hw
  | chunk? c => exact hw
  | raycast origin direction length before =>
    simp only [Question.apply, raycast]
    split
    · exact hw
    · exact hw.of_sameStorage ⟨rfl, rfl⟩
  | collide box => exact hw.of_sameStorage ⟨rfl, rfl⟩

theorem generateChunk (g : Terrain.Landscape) (c : Coord) :
    (Terrain.generateChunk .world g c w).1.Intact := by
  rw [generateChunk_world]
  split
  · exact hw
  · have hstep : ∀ (u : World) (write : Terrain.Write), u.Owned → u.Intact →
        (u.setBlock write.1 write.2).Owned ∧ (u.setBlock write.1 write.2).Intact := by
      intro u write hu hiu
      exact ⟨(edits_setBlock u write.1 write.2).owned hu, hiu.setBlock hu write.1 write.2⟩
    obtain ⟨ho', hw'⟩ := hw.foldl ho hstep (g.chunkWrites c)
    exact hw'.markGenerated ho' c

theorem generateSpawn (g : Terrain.Landscape) (radius : Int64) :
    (Terrain.generateSpawn .world g radius w).target.Intact := by
  rw [Terrain.generateSpawn, generateChunks_world]
  exact (hw.foldl ho
    (fun u c hu hiu => ⟨(edits_generateChunk g c u).owned hu, hiu.generateChunk hu g c⟩) _).2

theorem apply (m : Move) : (m.apply w).Intact := by
  cases m with
  | act a =>
    cases a with
    | setBlock p id => exact hw.setBlock ho p id
    | damageBlock r p amount => exact hw.damageBlock ho r p amount
    | markChunk c priority => exact hw.markChunk ho c priority
    | markGenerated c => exact hw.markGenerated ho c
    | advanceTick => exact hw.of_sameStorage ⟨rfl, rfl⟩
    | reset =>
      intro c d hd
      rw [Move.apply, Action.apply, chunk?_reset] at hd
      cases hd
    | unload c => exact hw.unload ho c
    | ask q => exact hw.ask ho q
  | markCached c => exact hw.markCached ho c
  | save savedAt archive =>
    rw [Move.apply, World.saveTo]
    split <;> exact hw.of_sameStorage ⟨rfl, rfl⟩
  | load source => exact hw.loadFrom ho source
  | generateChunk g c => exact hw.generateChunk ho g c
  | generateSpawn g radius => exact hw.generateSpawn ho g radius

theorem run (moves : List Move) : (Move.run moves w).Intact := by
  induction moves generalizing w with
  | nil => exact hw
  | cons m moves ih => exact ih (ho.run [m]) (hw.apply ho m)

end Keeping

theorem unbroken_of_block? (hw : w.Intact) {p : Coord} {b : Cell} (hb : w.block? p = some b) :
    Unbroken b.damage := by
  rw [block?_eq_chunk?, Option.bind_eq_some_iff] at hb
  obtain ⟨d, hd, hb⟩ := hb
  obtain ⟨rfl, -⟩ := Chunk.cell_of_block? hb
  exact hw p.parent d hd p.place

end Intact

section Digging

variable (ho : w.Owned) {r : Registry} {p : Coord} {b : Cell} (hb : w.block? p = some b)
  {amount : Float32}
include ho hb

theorem block?_of_broken (h : strike r (some b) amount = .broken) :
    (w.damageBlock r p amount).1 = true ∧ (w.damageBlock r p amount).2.block? p = none := by
  rw [damageBlock, hb, h]
  refine ⟨rfl, ?_⟩
  change ((w.setBlock p air).note (.blockBroken p)).block? p = none
  rw [(sameStorage_note (w.setBlock p air) (.blockBroken p)).block?_eq, block?_setBlock ho, if_pos rfl]
  rfl

theorem block?_of_damaged {damage : Float32} (h : strike r (some b) amount = .damaged damage) :
    (w.damageBlock r p amount).1 = false
      ∧ (w.damageBlock r p amount).2.block? p
        = some { b with damage := Chunk.clampDamage damage } := by
  rw [damageBlock, hb, h]
  cases hh : w.handle? p.parent with
  | none =>
    -- A block is in a chunk, and a chunk has a handle.
    rw [block?_eq_chunk?, ho.handle?_eq_none.mp hh] at hb
    cases hb
  | some k =>
    refine ⟨rfl, (block?_writeDamage ho hh damage w.tick p).trans ?_⟩
    rw [if_pos rfl, hb, Option.map_some]

/-- A block that is dug at is gone or is left with its type, with the damage that it had or with the one that
the strike gives it. -/
theorem block?_damageBlock_self :
    ((w.damageBlock r p amount).1 = true ∧ (w.damageBlock r p amount).2.block? p = none)
      ∨ (w.damageBlock r p amount).1 = false
        ∧ ∃ b', (w.damageBlock r p amount).2.block? p = some b' ∧ b'.kind = b.kind
          ∧ (b'.damage = b.damage ∨ ∃ damage, strike r (some b) amount = .damaged damage
            ∧ b'.damage = Chunk.clampDamage damage) := by
  cases hstrike : strike r (some b) amount with
  | none =>
    rw [damageBlock, hb, hstrike]
    exact .inr ⟨rfl, b, hb, rfl, .inl rfl⟩
  | broken => exact .inl (block?_of_broken ho hb hstrike)
  | damaged damage =>
    obtain ⟨hfst, hleft⟩ := block?_of_damaged ho hb hstrike
    exact .inr ⟨hfst, _, hleft, rfl, .inr ⟨damage, rfl, rfl⟩⟩

end Digging

theorem intact_new (seed : Int64) (id : String) (createdAt : Data.Timestamp)
    (compression : String) : (new seed id createdAt compression).Intact := by
  intro c d hd
  simp at hd

/-- After any moves, with any strengths, hardnesses and sources, no cell has a damage below zero or
from one up. Digging at a block either removes it or leaves its type. If it is left with a damage that is a
number, then the byte of this damage in a save is the largest that does not stand for more: it is zero only
if there is no whole step. If the damage is not a number, its byte is zero; this only happens if the damage
was none before, if the strength or the hardness is none, or if both of these are infinite. -/
theorem run_new_damages (seed : Int64) (id : String) (createdAt : Data.Timestamp)
    (compression : String) (moves : List Move) :
    let w := Move.run moves (.new seed id createdAt compression)
    (∀ c d, w.chunk? c = some d →
        ∀ l, ¬ (d.chunk.cell l).damage < 0 ∧ ¬ (d.chunk.cell l).damage ≥ 1)
      ∧ ∀ r p b amount, w.block? p = some b →
          ((w.damageBlock r p amount).1 = true ∧ (w.damageBlock r p amount).2.block? p = none)
            ∨ (w.damageBlock r p amount).1 = false
              ∧ ∃ b', (w.damageBlock r p amount).2.block? p = some b' ∧ b'.kind = b.kind
                ∧ (b'.damage.isNaN = false →
                  0 ≤ b'.damage ∧ b'.damage < 1 ∧ ∀ byte : UInt8, 0 < byte →
                    (byte ≤ quantizeDamage b'.damage ↔ damageOfByte byte ≤ b'.damage))
                ∧ (b'.damage.isNaN = true →
                  quantizeDamage b'.damage = 0
                    ∧ (b.damage.isNaN = true ∨ amount.isNaN = true
                      ∨ (r.hardness b.kind).isNaN = true
                      ∨ amount.isInf = true ∧ (r.hardness b.kind).isInf = true)) := by
  intro w
  have hnew := owned_new seed id createdAt compression
  have ho : w.Owned := hnew.run moves
  have hw : w.Intact := (intact_new seed id createdAt compression).run hnew moves
  refine ⟨fun c d hd l => ⟨(hw c d hd l).nonneg, (hw c d hd l).below⟩, fun r p b amount hb => ?_⟩
  rcases block?_damageBlock_self ho hb with hgone | ⟨hfst, b', hb', hkind, hdamage⟩
  · exact .inl hgone
  · have hunbroken := (hw.damageBlock ho r p amount).unbroken_of_block? hb'
    refine .inr ⟨hfst, b', hb', hkind, fun hnumber => ?_, fun hnan => ?_⟩
    · obtain ⟨hnonneg, hbelow⟩ := hunbroken.range hnumber
      exact ⟨hnonneg, hbelow, fun byte hbyte => le_quantizeDamage_iff hunbroken hbyte⟩
    · refine ⟨quantizeDamage_of_isNaN hnan, ?_⟩
      obtain hsame | ⟨damage, hstrike, hclamp⟩ := hdamage
      · exact .inl (hsame ▸ hnan)
      · rw [hclamp, isNaN_clampDamage] at hnan
        exact isNaN_of_strike (hw.unbroken_of_block? hb) hstrike hnan

/-- The built-in types and one whose hardness is not a number. -/
def oddRegistry : Registry := Registry.builtin.register 20 ⟨"odd", false, 0 / 0⟩

/-- A world with one block of this type. -/
def oddWorld : World := (new 1 "" .zero "").setBlock ⟨0, 0, 0⟩ 20

/-- Digging at this block neither removes it nor leaves a damage that a save keeps. -/
theorem dig_loses_damage :
    (oddWorld.damageBlock oddRegistry ⟨0, 0, 0⟩ 0.5).1 = false
      ∧ ∃ b, (oddWorld.damageBlock oddRegistry ⟨0, 0, 0⟩ 0.5).2.block? ⟨0, 0, 0⟩ = some b
        ∧ b.damage.isNaN = true ∧ quantizeDamage b.damage = 0 := by
  have hnew := owned_new 1 "" .zero ""
  have ho : oddWorld.Owned := (edits_setBlock _ ⟨0, 0, 0⟩ 20).owned hnew
  have hb : oddWorld.block? ⟨0, 0, 0⟩ = some (.fresh 20) := by
    rw [oddWorld, block?_setBlock hnew, if_pos rfl]
    rfl
  obtain ⟨damage, hstrike, hnan⟩ :
      ∃ damage, strike oddRegistry (some (.fresh 20)) 0.5 = .damaged damage ∧ damage.isNaN = true := by
    refine ⟨0 + 0.5 / (0 / 0), ?_, by decide +kernel⟩
    have hhardness : oddRegistry.hardness (Cell.fresh 20).kind = 0 / 0 := by decide +kernel
    rw [strike]
    dsimp only
    rw [hhardness, if_neg (by decide +kernel), if_neg (by decide +kernel)]
    rfl
  obtain ⟨hfst, hleft⟩ := block?_of_damaged ho hb hstrike
  have hdamage : (Chunk.clampDamage damage).isNaN = true := (isNaN_clampDamage damage).trans hnan
  exact ⟨hfst, _, hleft, hdamage, quantizeDamage_of_isNaN hdamage⟩

end World

end BlockWorld
