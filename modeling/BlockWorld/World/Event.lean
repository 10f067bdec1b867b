import BlockWorld.Arena
import BlockWorld.Log.Level
import BlockWorld.Text.HexDump
/-!
What happens in a world and is worth a line in the log.
-/
namespace BlockWorld.World

open Grid

/-- Something that happened in a world. -/
inductive Event where
  | megachunkCreated (mega : Coord)
  | chunkCreated (chunk : Coord)
  | blockBroken (p : Coord)
  | cleared
  | saved (megachunks chunks : Nat)
  | saveFailed (cause : String)
  | loaded (megachunks chunks : Nat)
  | loadFailed (cause : String)
  /-- An entry of a save does not hold a megachunk. -/
  | entryCorrupt (name : String) (data : ByteArray)

/-- How long a save or a load took, which the log does not measure. -/
def elapsed : String := "T"

/-- The line of the log for an event. -/
def Event.message : Event → Log.Message
  | .megachunkCreated mega => ⟨.debug, "Создан мегачанк " ++ mega.text⟩
  | .chunkCreated chunk => ⟨.trace, "Создан чанк " ++ chunk.text⟩
  | .blockBroken p => ⟨.debug, "Блок " ++ p.text ++ " разрушен"⟩
  | .cleared => ⟨.info, "Мир очищен"⟩
  | .saved megachunks chunks =>
    ⟨.info, "Мир сохранён: " ++ toString megachunks ++ " мегачанков, " ++ toString chunks ++
      " чанков за " ++ elapsed⟩
  | .saveFailed cause => ⟨.error, "Ошибка сохранения мира: " ++ cause⟩
  | .loaded megachunks chunks =>
    ⟨.info, "Мир загружен: " ++ toString megachunks ++ " мегачанков, " ++ toString chunks ++
      " чанков за " ++ elapsed⟩
  | .loadFailed cause => ⟨.error, "Ошибка загрузки мира: " ++ cause⟩
  | .entryCorrupt name data =>
    ⟨.debug, "Повреждённая запись " ++ name ++ ":\n" ++ Text.hexDump data⟩

end BlockWorld.World

namespace BlockWorld

/-- The line of the log for a slot that could not be freed. -/
def BadHandle.releaseMessage : BadHandle → Log.Message
  | .outside h _ => ⟨.error, "Освобождение несуществующего чанка " ++ toString h⟩
  | .vacant h => ⟨.warn, "Повторное освобождение чанка " ++ toString h⟩

end BlockWorld
