/-
# Trees of entries

The type of entries allows directories that no file system has: with two entries of one name, or
with names that are no names.  `Entry.IsTree` rules them out.  In such a tree an entry is found at
exactly one place, and the entries below a directory are again such trees.
-/
import CoverageEstimate.FileSystem.Basic
import CoverageEstimate.Proofs.Sorting

namespace CoverageEstimate

namespace Entry

/-- Whether a text can be the name of an entry: it has characters, and none of them is a slash. -/
def IsName (n : String) : Prop := n ≠ "" ∧ '/' ∉ n.toList

instance (n : String) : Decidable (IsName n) := inferInstanceAs (Decidable (_ ∧ _))

/-- The entry holds its entries under names that are all different, and so do the directories
below it. -/
inductive IsTree : Entry → Prop
  | file (n : String) (content : List UInt8) : IsTree (.file n content)
  | link (n target : String) : IsTree (.link n target)
  | directory (n : String) {es : List Entry} (distinct : (es.map name).Nodup)
      (names : ∀ e ∈ es, IsName e.name) (trees : ∀ e ∈ es, IsTree e) : IsTree (.directory n es)

lemma named?_eq_some_iff {es : List Entry} (distinct : (es.map name).Nodup) {n : String}
    {e : Entry} : named? n es = some e ↔ e ∈ es ∧ e.name = n :=
  Sorting.find?_eq_some_iff name distinct

lemma at?_cons (e : Entry) (n : String) (ns : List String) :
    e.at? (n :: ns) = (named? n e.entries).bind fun inner => inner.at? ns := by
  rw [at?]
  cases named? n e.entries <;> rfl

/-- The first name of a place leads from a directory to the entry of that name. -/
lemma at?_directory_cons {n : String} {es : List Entry} (distinct : (es.map name).Nodup)
    {m : String} {below : List String} {inner : Entry} :
    (directory n es).at? (m :: below) = some inner ↔
      ∃ e ∈ es, e.name = m ∧ e.at? below = some inner := by
  rw [at?_cons, Option.bind_eq_some_iff]
  constructor
  · rintro ⟨e, hn, he⟩
    obtain ⟨hmem, hname⟩ := (named?_eq_some_iff distinct).mp hn
    exact ⟨e, hmem, hname, he⟩
  · rintro ⟨e, hmem, hname, he⟩
    exact ⟨e, (named?_eq_some_iff distinct).mpr ⟨hmem, hname⟩, he⟩

/-- No name leads on from an entry that is no directory. -/
lemma at?_cons_of_entries_nil {e : Entry} (h : e.entries = []) (m : String)
    (below : List String) : e.at? (m :: below) = none := by
  rw [at?_cons, h]
  rfl

/-- What stands at a place in a tree is a tree. -/
lemma IsTree.at? {e inner : Entry} {place : List String} (h : e.IsTree)
    (hi : e.at? place = some inner) : inner.IsTree := by
  induction place generalizing e with
  | nil =>
    rw [Entry.at?] at hi
    exact Option.some.inj hi ▸ h
  | cons n ns ih =>
    cases h with
    | file | link => exact absurd hi (by rw [at?_cons_of_entries_nil rfl]; simp)
    | directory m distinct names trees =>
      obtain ⟨f, hf, -, hi⟩ := (at?_directory_cons distinct).mp hi
      exact ih (trees f hf) hi

/-- All names on the way to a place in a tree are names. -/
lemma IsTree.isName_of_mem {e inner : Entry} {place : List String} (h : e.IsTree)
    (hi : e.at? place = some inner) : ∀ n ∈ place, IsName n := by
  induction place generalizing e with
  | nil => simp
  | cons n ns ih =>
    cases h with
    | file | link => exact absurd hi (by rw [at?_cons_of_entries_nil rfl]; simp)
    | directory m distinct names trees =>
      obtain ⟨f, hf, rfl, hinner⟩ := (at?_directory_cons distinct).mp hi
      exact List.forall_mem_cons.mpr ⟨names f hf, ih (trees f hf) hinner⟩

mutual

/-- Computes whether the entry is a tree. -/
def isTree : Entry → Bool
  | file _ _ => true
  | link _ _ => true
  | directory _ es =>
    decide (es.map name).Nodup && es.all (fun e => decide (IsName e.name)) && areTrees es

/-- Computes whether all entries are trees. -/
def areTrees : List Entry → Bool
  | [] => true
  | e :: rest => isTree e && areTrees rest

end

lemma areTrees_eq_all (es : List Entry) : areTrees es = es.all isTree := by
  induction es with
  | nil => rfl
  | cons e rest ih => rw [areTrees, ih, List.all_cons]

lemma isTree_directory_iff {n : String} {es : List Entry} :
    (directory n es).isTree = true ↔
      (es.map name).Nodup ∧ (∀ e ∈ es, IsName e.name) ∧ ∀ e ∈ es, e.isTree = true := by
  simp [isTree, areTrees_eq_all, and_assoc]

lemma IsTree.isTree_eq_true {e : Entry} (h : e.IsTree) : e.isTree = true := by
  induction h with
  | file | link => rfl
  | directory n distinct names trees ih => exact isTree_directory_iff.mpr ⟨distinct, names, ih⟩

lemma isTree_of_isTree_eq_true : (e : Entry) → e.isTree = true → e.IsTree
  | file n content, _ => .file n content
  | link n target, _ => .link n target
  | directory n es, h => by
    obtain ⟨distinct, names, trees⟩ := isTree_directory_iff.mp h
    exact .directory n distinct names fun e he => isTree_of_isTree_eq_true e (trees e he)

instance (e : Entry) : Decidable e.IsTree :=
  decidable_of_iff _ ⟨isTree_of_isTree_eq_true e, IsTree.isTree_eq_true⟩

end Entry

/-- The file system is a tree. -/
def FileSystem.IsTree (fs : FileSystem) : Prop := fs.root.IsTree

instance (fs : FileSystem) : Decidable fs.IsTree := inferInstanceAs (Decidable fs.root.IsTree)

/-- What a path leads to in a file system that is a tree is a tree. -/
lemma FileSystem.IsTree.entry {fs : FileSystem} (h : fs.IsTree) {path : String} {e : Entry}
    (he : fs.entry path = .ok e) : e.IsTree := by
  rw [FileSystem.entry] at he
  split at he
  · rename_i place hp
    split at he
    · rename_i inner hi
      obtain rfl := Except.ok.inj he
      exact h.at? hi
    · simp at he
  · simp at he

namespace FileSystem

/-- The name of a directory in the root leads to it. -/
lemma walk_into {name : String} (short : ¬nameLimit < name.utf8ByteSize) (es : List Entry)
    (links : Nat) :
    (FileSystem.mk [.directory name es] "/").walk links [] [.into name] = .ok (.found [name]) := by
  simp [walk, root, Entry.at?, Entry.named?, Entry.name, short]

/-- The path of a directory in the root leads to it. -/
lemma realPlace_app (es : List Entry) :
    (FileSystem.mk [.directory "app" es] "/").realPlace "/app" = .ok ["app"] := by
  have hsteps : steps (Path.join "/" "/app") = [.into "app"] := by decide
  have hlocate : (FileSystem.mk [.directory "app" es] "/").locate "/app" =
      .ok (.found ["app"]) := by
    rw [locate, if_neg (by decide), if_neg (by decide), if_neg (by decide), hsteps]
    exact walk_into (by decide) es linkLimit
  rw [realPlace, hlocate]

/-- A directory in the root is found by its path, whatever it holds. -/
lemma entry_app (es : List Entry) :
    (FileSystem.mk [.directory "app" es] "/").entry "/app" = .ok (.directory "app" es) := by
  rw [entry, realPlace_app]
  rfl

end FileSystem

end CoverageEstimate
