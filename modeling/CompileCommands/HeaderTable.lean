/-!
# The table of precompiled headers

A build compiles some headers ahead and then includes the artifact in place of the header. The
table knows, for each artifact, the header that it was built from. A later mapping of an artifact
replaces the earlier one.

An include path names an artifact with or without its ending, so resolving one tries the path with
`.pth`, then with `.pch`, then as it is.
-/

namespace CompileCommands

structure HeaderMapping where
  artifact : String
  source : String
  deriving DecidableEq, Repr

/-- Mappings, the latest first, no two for one artifact. -/
structure HeaderTable where
  mappings : List HeaderMapping
  distinct : (mappings.map HeaderMapping.artifact).Nodup

namespace HeaderTable

def empty : HeaderTable := ⟨[], List.nodup_nil⟩

instance : Inhabited HeaderTable := ⟨empty⟩

def get? (t : HeaderTable) (artifact : String) : Option String :=
  (t.mappings.find? (·.artifact = artifact)).map HeaderMapping.source

/-- Records a mapping in place of an earlier one of the same artifact. -/
def insert (t : HeaderTable) (m : HeaderMapping) : HeaderTable where
  mappings := m :: t.mappings.filter (·.artifact ≠ m.artifact)
  distinct := by
    rw [List.map_cons, List.nodup_cons]
    refine ⟨?_, (List.filter_sublist.map _).nodup t.distinct⟩
    intro h
    obtain ⟨n, hn, same⟩ := List.mem_map.1 h
    simpa [same] using (List.mem_filter.1 hn).2

def size (t : HeaderTable) : Nat := t.mappings.length

def insertAll (t : HeaderTable) (ms : List HeaderMapping) : HeaderTable := ms.foldl insert t

/-- The endings that an include path may lack, in the order in which they are tried. -/
def endings : List String := [".pth", ".pch", ""]

/-- The header behind an include path. -/
def resolve? (t : HeaderTable) (path : String) : Option String :=
  endings.findSome? fun ending => t.get? (path ++ ending)

end HeaderTable

end CompileCommands
