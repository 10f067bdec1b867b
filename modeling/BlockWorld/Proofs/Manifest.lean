import BlockWorld.Save.Manifest
/-!
Which manifests are accepted. A manifest passes if and only if its format is the current one, its
identifier is well-formed and its count is not negative (`check_eq_ok_iff`); nothing is changed on
the way. A save may be without a manifest, but one that is there has to be read and to pass.

The check is a chain of tests, and each of them is turned into the part of `Valid` that it stands for.
Decoding puts the reading of the text in front (`decode_eq_ok_iff`), and looking into a save puts in front of
that whether there is an entry (`readFrom_eq_none_iff`, `readFrom_eq_some_iff`). Failures are told apart on
the way: only the reading of the text can break down, the check never does (`isBreakdown_of_check`,
`parsed_of_isBreakdown`).
-/
namespace BlockWorld.Save

open Data

namespace Manifest

/-- A manifest with the current format, a well-formed identifier and a count. -/
structure Valid (m : Manifest) : Prop where
  format : m.format = 1
  worldId : Text.Uuid.isValid m.worldId = true
  count : 0 ≤ m.megachunks

theorem uuid_check_eq_ok_iff (s : String) :
    Text.Uuid.check s = .ok () ↔ Text.Uuid.isValid s = true := by
  rw [Text.Uuid.isValid]
  cases Text.Uuid.check s with
  | ok u => exact ⟨fun _ => rfl, fun _ => rfl⟩
  | error e => exact ⟨fun h => (nomatch h), fun h => (nomatch h)⟩

/-- A check passes exactly the valid manifests, and gives them back. -/
theorem check_eq_ok_iff (m m' : Manifest) : m.check = .ok m' ↔ m' = m ∧ m.Valid := by
  have hformat : ¬(m.format < 1 ∨ currentFormat < m.format) ↔ m.format = 1 := by
    rw [not_or, Int64.not_lt, Int64.not_lt]
    exact ⟨fun h => Int64.le_antisymm h.2 h.1, fun h => by rw [h]; decide⟩
  rw [check]
  split
  · rename_i hbad
    exact ⟨fun h => (nomatch h), fun h => absurd hbad (hformat.mpr h.2.format)⟩
  · rename_i hgood
    split
    · rename_i problem hproblem
      refine ⟨fun h => (nomatch h), fun h => ?_⟩
      rw [(uuid_check_eq_ok_iff m.worldId).mpr h.2.worldId] at hproblem
      cases hproblem
    · rename_i hid
      split
      · rename_i hneg
        exact ⟨fun h => (nomatch h), fun h => absurd hneg (Int64.not_lt.mpr h.2.count)⟩
      · rename_i hcount
        refine ⟨fun h => ?_, fun h => by rw [h.1]⟩
        exact ⟨(Except.ok.inj h).symm, hformat.mp hgood, (uuid_check_eq_ok_iff m.worldId).mp hid,
          Int64.not_lt.mp hcount⟩

/-- A refused manifest is no breakdown. -/
theorem isBreakdown_of_check {m : Manifest} {e : ManifestError} (h : m.check = .error e) :
    Fault.isBreakdown e = false := by
  rw [check] at h
  split at h
  · obtain rfl := Except.error.inj h
    rfl
  · split at h
    · obtain rfl := Except.error.inj h
      rfl
    · split at h
      · obtain rfl := Except.error.inj h
        rfl
      · cases h

/-- What the text in some bytes says, before it is checked. -/
def parsed (data : ByteArray) : Except Yaml.Failure Manifest :=
  Yaml.decode (Yaml.record fields) blank data

theorem decode_of_error {data : ByteArray} {e : Yaml.Failure} (h : parsed data = .error e) :
    decode data = .error (.parse e) := by
  unfold parsed at h
  unfold decode
  simp only [h]

theorem decode_of_ok {data : ByteArray} {m : Manifest} (h : parsed data = .ok m) :
    decode data = m.check := by
  unfold parsed at h
  unfold decode
  simp only [h]

/-- What is read from bytes is what their text says, if that is valid. -/
theorem decode_eq_ok_iff (data : ByteArray) (m : Manifest) :
    decode data = .ok m ↔ parsed data = .ok m ∧ m.Valid := by
  cases hp : parsed data with
  | error e =>
    rw [decode_of_error hp]
    exact ⟨fun h => (nomatch h), fun h => (nomatch h.1)⟩
  | ok m' =>
    rw [decode_of_ok hp, check_eq_ok_iff]
    constructor
    · rintro ⟨rfl, hv⟩
      exact ⟨rfl, hv⟩
    · rintro ⟨he, hv⟩
      obtain rfl := Except.ok.inj he
      exact ⟨rfl, hv⟩

/-- Decoding breaks down only if reading the text does. -/
theorem parsed_of_isBreakdown {data : ByteArray} {e : ManifestError} (h : decode data = .error e)
    (hbreak : Fault.isBreakdown e = true) :
    ∃ b, parsed data = .error (.broken b) ∧ e = .parse (.broken b) := by
  cases hp : parsed data with
  | ok m =>
    rw [decode_of_ok hp] at h
    rw [isBreakdown_of_check h] at hbreak
    cases hbreak
  | error f =>
    rw [decode_of_error hp] at h
    obtain rfl := Except.error.inj h
    cases f with
    | malformed => cases hbreak
    | mismatch => cases hbreak
    | broken b => exact ⟨b, rfl, rfl⟩

section Read

variable {source : Source}

theorem readFrom_of_error {e : ArchiveError} (h : source.read entryName = .error e) :
    readFrom source = if e.isAbsent then .ok none else .error (.unreadable e) := by
  rw [readFrom, h]

theorem readFrom_of_ok {data : ByteArray} (h : source.read entryName = .ok data) :
    readFrom source = (decode data).map some := by
  rw [readFrom, h]
  cases hd : decode data <;> simp only [hd] <;> rfl

/-- A save has no manifest if there is no entry for it. -/
theorem readFrom_eq_none_iff :
    readFrom source = .ok none ↔ ∃ e, source.read entryName = .error e ∧ e.isAbsent = true := by
  cases hread : source.read entryName with
  | error e =>
    rw [readFrom_of_error hread]
    constructor
    · intro h
      split at h
      · rename_i hab
        exact ⟨e, rfl, hab⟩
      · cases h
    · rintro ⟨e', he, hab⟩
      obtain rfl := Except.error.inj he
      rw [if_pos hab]
  | ok data =>
    rw [readFrom_of_ok hread]
    refine ⟨fun h => ?_, fun ⟨_, he, _⟩ => (nomatch he)⟩
    cases hd : decode data <;> rw [hd] at h <;> cases h

/-- A save has a manifest if its entry can be read and decoded. -/
theorem readFrom_eq_some_iff {m : Manifest} :
    readFrom source = .ok (some m) ↔ ∃ data, source.read entryName = .ok data
      ∧ decode data = .ok m := by
  cases hread : source.read entryName with
  | error e =>
    rw [readFrom_of_error hread]
    refine ⟨fun h => ?_, fun ⟨_, hd, _⟩ => (nomatch hd)⟩
    split at h <;> cases h
  | ok data =>
    rw [readFrom_of_ok hread]
    constructor
    · intro h
      cases hd : decode data with
      | ok m' =>
        rw [hd] at h
        obtain rfl := Option.some.inj (Except.ok.inj h)
        exact ⟨data, rfl, hd⟩
      | error e => rw [hd] at h; cases h
    · rintro ⟨data', hdata, hd⟩
      obtain rfl := Except.ok.inj hdata
      rw [hd]
      rfl

end Read

end Manifest

end BlockWorld.Save
