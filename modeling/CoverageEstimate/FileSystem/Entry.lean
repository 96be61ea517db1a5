/-
# Directory entries

A directory holds entries under names.  An entry is a file with its bytes, a symbolic link with
the path it leads to, or a directory again.  Places in a directory are given by lists of names,
the outermost one first; they never pass through a link.
-/
namespace CoverageEstimate

/-- What a directory holds under a name. -/
inductive Entry where
  /-- A regular file. -/
  | file (name : String) (content : List UInt8)
  /-- A symbolic link. -/
  | link (name : String) (target : String)
  /-- A directory. -/
  | directory (name : String) (entries : List Entry)
  deriving Inhabited

namespace Entry

/-- The name of the entry. -/
def name : Entry → String
  | file n _ => n
  | link n _ => n
  | directory n _ => n

/-- What a directory holds; other entries hold nothing. -/
def entries : Entry → List Entry
  | directory _ es => es
  | _ => []

/-- Whether the entry is a directory. -/
def isDirectory : Entry → Bool
  | directory _ _ => true
  | _ => false

/-- Whether the entry is a regular file. -/
def isFile : Entry → Bool
  | file _ _ => true
  | _ => false

/-- The entry of a name in a list of entries. -/
def named? (n : String) (es : List Entry) : Option Entry := es.find? fun e => e.name == n

/-- The entry at a place below an entry. -/
def at? : Entry → List String → Option Entry
  | e, [] => some e
  | e, n :: ns =>
    match named? n e.entries with
    | some inner => inner.at? ns
    | none => none

/-- A list of entries in which an entry has taken the place of the one that had its name, or has
come to the end if there was none. -/
def put (new : Entry) : List Entry → List Entry
  | [] => [new]
  | e :: rest => if e.name = new.name then new :: rest else e :: put new rest

/-- An entry with a change made to what the directory at a place below it holds.  Where there is
no such directory nothing changes. -/
def changeAt (change : List Entry → List Entry) : List String → Entry → Entry
  | [], directory n es => directory n (change es)
  | m :: ms, directory n es =>
    directory n (es.map fun e => if e.name = m then changeAt change ms e else e)
  | _, e => e

/-- What is put under a name is found there. -/
@[simp] theorem named?_put_self (new : Entry) (es : List Entry) :
    named? new.name (put new es) = some new := by
  induction es with
  | nil => simp [put, named?]
  | cons e rest ih =>
    unfold put
    split
    · simp [named?]
    · rename_i h
      simpa [named?, h] using ih

/-- What is put under a name does not change what is found under another. -/
theorem named?_put_of_ne {n : String} {new : Entry} (h : n ≠ new.name) (es : List Entry) :
    named? n (put new es) = named? n es := by
  induction es with
  | nil => simp [put, named?, Ne.symm h]
  | cons e rest ih =>
    unfold put
    split
    · rename_i he
      simp [named?, he, Ne.symm h]
    · by_cases hn : e.name = n
      · simp [named?, hn]
      · simpa [named?, hn] using ih

end Entry

end CoverageEstimate
