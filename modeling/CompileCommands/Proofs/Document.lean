import CompileCommands.Document
import CompileCommands.Proofs.Json.Grammar
import CompileCommands.Proofs.Json.Quoted

/-!
# The written database read back

The chunks of a finished database, put together, are JSON text of an array with the entries as
objects, in order and with all their members (`parse_finished`). Each part of the text follows a
rule of the grammar: a member (`writes_field`), an entry (`writes_render`) and the entries between
the brackets (`writes_entries`).
-/

namespace CompileCommands

open Json

def Entry.toJson (e : Entry) : Value :=
  .object [("directory", .string e.directory), ("command", .string e.command),
    ("file", .string e.file)]

namespace Json

/-- A member of an entry, with the white space around it. -/
theorem writes_field (name text : String) {behind : List Char} (hbehind : IsBlank behind) :
    Writes (.member (name, .string text))
      ('\n' :: ((Entry.field name text).toList ++ behind)) := by
  have hvalue : Writes (.item (.string text)) ([' '] ++ ((quote text).toList ++ behind)) :=
    .item (by decide) hbehind (.string (isString_quote text))
  have hmember : Writes (.member (name, .string text))
      (['\n', ' ', ' '] ++ ((quote name).toList ++
        ([] ++ ':' :: ([' '] ++ ((quote text).toList ++ behind))))) :=
    .member (by decide) (isString_quote name) (by decide) hvalue
  simpa [Entry.field] using hmember

theorem writes_render (e : Entry) : Writes (.value e.toJson) e.render.toList := by
  have hend : IsBlank ['\n'] := by decide
  have hnone : IsBlank [] := by decide
  have hmembers := Writes.moreMembers (writes_field "directory" e.directory hnone) <|
    .moreMembers (writes_field "command" e.command hnone) <|
    .lastMember (writes_field "file" e.file hend)
  simpa [Entry.render, Entry.toJson] using Writes.object hmembers

/-! ## Items -/

def laterEntries (es : List Entry) : List Char :=
  es.flatMap fun e => ",\n".toList ++ e.render.toList

/-- Entries in a row, with the white space around them. -/
theorem writes_entries : ∀ (e : Entry) (es : List Entry),
    Writes (.items ((e :: es).map Entry.toJson))
      ('\n' :: (e.render.toList ++ (laterEntries es ++ ['\n'])))
  | e, [] => by
      have hitem : Writes (.item e.toJson) (['\n'] ++ (e.render.toList ++ ['\n'])) :=
        .item (by decide) (by decide) (writes_render e)
      simpa [laterEntries] using Writes.lastItem hitem
  | e, next :: es => by
      have hitem : Writes (.item e.toJson) (['\n'] ++ (e.render.toList ++ [])) :=
        .item (by decide) (by decide) (writes_render e)
      have hitems := Writes.moreItems hitem (writes_entries next es)
      simpa [laterEntries] using hitems

end Json

/-! ## The whole document -/

namespace Document

/-- The chunks that entries are written as: each stands behind its separator. -/
def separated (es : List Entry) : List String := es.mapIdx fun i e => separator i ++ e.render

theorem separated_concat (es : List Entry) (e : Entry) :
    separated (es ++ [e]) = separated es ++ [separator es.length ++ e.render] :=
  List.mapIdx_concat

def finished (es : List Entry) : List String := "[" :: separated es ++ ["\n]\n"]

theorem separated_cons (e : Entry) (es : List Entry) :
    separated (e :: es) = ("\n" ++ e.render) :: es.map fun e => ",\n" ++ e.render := by
  rw [separated, List.mapIdx_cons]
  refine congrArg₂ List.cons rfl (List.ext_getElem ?_ ?_)
  · simp
  · simp [separator]

theorem toList_finished (e : Entry) (es : List Entry) :
    (String.join (finished (e :: es))).toList =
      '[' :: '\n' :: (e.render.toList ++ (Json.laterEntries es ++ '\n' :: ']' :: ['\n'])) := by
  rw [finished, separated_cons, String.toList_join]
  simp [Json.laterEntries, List.flatMap_map]

/-- A finished database is JSON text of its entries. -/
theorem parse_finished (es : List Entry) :
    Json.parse (String.join (finished es)) = some (.array (es.map Entry.toJson)) := by
  cases es with
  | nil => rfl
  | cons e es =>
      have harray := Writes.array (writes_entries e es)
      have htext : Writes (.item (.array ((e :: es).map Entry.toJson)))
          ([] ++ ('[' :: ('\n' :: (e.render.toList ++ (Json.laterEntries es ++ ['\n'])) ++ [']']) ++
            ['\n'])) :=
        .item (by decide) (by decide) harray
      rw [parse_eq_some_iff, IsTextOf, toList_finished]
      simpa using htext

end Document

end CompileCommands
