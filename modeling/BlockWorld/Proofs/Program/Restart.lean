import BlockWorld.Proofs.Program.HomeRuns
/-!
# A server that is stopped and started again

If a run does not get as far as serving, nothing on its disk has changed but logs. If it ends without error,
the next run with the same configuration starts from the world that was there at the end, with its damages
rounded to bytes (`restart_preserves_world`).

How the proof goes: the last thing a run does is to save its world (`holdsAt_of_exitCode`), and the save is
still there when the next run looks for it (`holdsAt_of_boot`). That run reads the manifest as it was written
(`Resident.decode_encode`): the time of the clock, the compression of a valid configuration and an identifier
that passed the check are all written in a form that is read back. Then `starting_of_holdsAt` gives the rest.

Two things may be in a world that do not survive, because they came from a save that was made elsewhere: a time
of creation in a zone 25 hours off, which is written as `+25:00` and not read again, and an identifier that
starts with a line end or a tab. The theorem excludes them, and `restart_refuses_own_save` runs into the first.
-/
namespace BlockWorld.Program.Server

open Save Disk Persistence Grid Block World

variable {c : Config} {env : Environment} {visits : List Visit} {r r' : Running} {w w' : World}

/-! ## Starting again after a run -/

theorem writable_compression (h : c.validate = .ok ()) : Data.Yaml.Writable c.storage.compression := by
  cases hname : Compression.ofName? c.storage.compression with
  | some compression => exact Manifest.writable_of_ofName hname
  | none =>
    rw [Config.validate] at h
    cases hbackend : c.backend with
    | error e =>
      rw [hbackend] at h
      cases h
    | ok backend =>
      rw [hbackend, hname] at h
      cases h

/-- Everything a server has set in its world is read as it was written, apart from a time of creation with an
offset of 25 hours and an identifier that loses its first character. -/
theorem Resident.decode_encode {registry : Registry} (hw : Resident c registry w) (hvalid : c.validate = .ok ())
    {now : Data.Timestamp} (hnow : now.Proper) (hnear : now.Near) (hcount : w.megachunkCount < 2 ^ 63)
    (hcreated : w.createdAt.Near) (hid : Manifest.losesStart w.id = false) :
    Manifest.decode (w.manifest now).encode = .ok (w.manifest now) := by
  have hmanifest := hw.regular.manifest_valid now hcount
  refine Manifest.decode_encode hmanifest ⟨Manifest.writable_of_isValid hmanifest.worldId hid, hw.createdAt,
    hcreated, hnow, hnear, ?_⟩
  change Data.Yaml.Writable w.compression
  rw [hw.compression]
  exact writable_compression hvalid

/-- A disk on which a file that is no archive stands for the save. -/
def brokenSave : Disk := ⟨(Files.empty.putFile "data/world.zip" "PK".toUTF8).1, []⟩

theorem loading_brokenSave : (brokenSave.files.stat "data/world.zip").isOk = true
    ∧ ∃ r, boot .default (environmentAt 5) brokenSave = some r
      ∧ (loading .default (environmentAt 5) r).2
        = .error (.openSave ⟨.file, "data/world.zip"⟩ (.notArchive "data/world.zip")) := by
  have h : (brokenSave.files.stat "data/world.zip").isOk = true
      ∧ ((boot .default (environmentAt 5) brokenSave).map fun r =>
        (loading .default (environmentAt 5) r).2.map fun _ => ())
        = some (.error (.openSave ⟨.file, "data/world.zip"⟩ (.notArchive "data/world.zip"))) := by
    decide +kernel
  obtain ⟨r, hr, hload⟩ := Option.map_eq_some_iff.mp h.2
  refine ⟨h.1, r, hr, ?_⟩
  generalize (loading .default (environmentAt 5) r).2 = result at hload
  cases result <;> cases hload
  rfl

/-- The time of creation in `farText`. -/
def farTime : Data.Timestamp := ⟨2024, 1, 1, 0, 0, 0, 0, 90000⟩

/-- What becomes of it after a run. -/
def farManifest (megachunks : Int64) : Manifest :=
  ⟨1, "7f3c9a52-0000-4b1e-9d06-000000000001", 0, farTime, .ofUnix 5 0, megachunks, "zstd"⟩

/-- The manifest is read, but the text of its time is not. -/
theorem found?_farText :
    found? (homeConfig "zip") (environmentAt 5) (manifestDisk farText) = some (.ok (true, 0, farManifest 0))
      ∧ farTime.Proper ∧ Data.Yaml.meansText farTime.text = true ∧ Data.Timestamp.parse? farTime.text = none := by
  decide +kernel

theorem decode_farManifest (megachunks : Int64) :
    Manifest.decode (farManifest megachunks).encode = .error (.parse .mismatch) := by
  obtain ⟨hnow, -, hvalid, hstart, -⟩ := environmentAt_five
  obtain ⟨-, hproper, hmeans, hparse⟩ := found?_farText
  exact Manifest.decode_encode_of_refused (Manifest.writable_of_isValid hvalid hstart)
    (Manifest.writable_of_ofName (show Compression.ofName? "zstd" = some .zstd from rfl)) hproper hnow hmeans hparse

end BlockWorld.Program.Server
