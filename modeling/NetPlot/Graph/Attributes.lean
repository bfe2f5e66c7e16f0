/-
  Attributes: keys with values, in the order in which the keys first came.

  `insert` replaces the value of a key in its place, or puts a new key at the end; so no key
  occurs twice (`keys_nodup`).  `keys_insert` says what an insertion does to the keys.
-/

namespace NetPlot.Graph

/-- Keys with values. -/
abbrev Entries := List (String × String)

namespace Entries

/-- The keys in order. -/
def keys (es : Entries) : List String := es.map (·.1)

/-- A value put in for a key, in its place if the key is there and at the end otherwise. -/
def insert (k v : String) : Entries → Entries
  | [] => [(k, v)]
  | (k', v') :: r => if k' = k then (k, v) :: r else (k', v') :: insert k v r

theorem keys_insert (k v : String) (es : Entries) :
    keys (insert k v es) = if k ∈ keys es then keys es else keys es ++ [k] := by
  induction es with
  | nil => simp [keys, insert]
  | cons e r ih =>
    obtain ⟨k', v'⟩ := e
    simp only [keys] at ih
    by_cases h : k' = k
    · simp [insert, keys, h]
    · simp only [insert, h, if_false, keys, List.map_cons, ih, List.mem_cons, Ne.symm h, false_or]
      split <;> simp_all

theorem keys_insert_nodup {k v : String} {es : Entries} (h : (keys es).Nodup) :
    (keys (insert k v es)).Nodup := by
  rw [keys_insert]
  split
  · exact h
  next hk => simpa [List.nodup_append, h] using fun a ha (e : a = k) => hk (e ▸ ha)

end Entries

/-- Attributes of a node, an edge or a region. -/
structure Attributes where
  entries : Entries
  /-- No key occurs twice. -/
  keys_nodup : (Entries.keys entries).Nodup
  deriving DecidableEq

namespace Attributes

/-- No attributes. -/
def empty : Attributes := ⟨[], by simp [Entries.keys]⟩

instance : EmptyCollection Attributes := ⟨empty⟩

/-- The value of a key. -/
def get? (a : Attributes) (k : String) : Option String := a.entries.lookup k

/-- A value put in for a key, in its place if the key is there and at the end otherwise. -/
def insert (a : Attributes) (k v : String) : Attributes :=
  ⟨Entries.insert k v a.entries, Entries.keys_insert_nodup a.keys_nodup⟩

/-- The attributes without a key. -/
def erase (a : Attributes) (k : String) : Attributes where
  entries := a.entries.filter (·.1 ≠ k)
  keys_nodup := a.keys_nodup.sublist (List.filter_sublist.map _)

/-- All of `b` put into `a`, one after the other. -/
def merge (a b : Attributes) : Attributes := b.entries.foldl (fun a (k, v) => a.insert k v) a

/-- Entries put in one after the other. -/
def ofEntries (es : Entries) : Attributes := es.foldl (fun a (k, v) => a.insert k v) empty

/-- Entries put in one after the other, those without a value left out. -/
def ofGiven (es : Entries) : Attributes := ofEntries (es.filter (·.2 ≠ ""))

/-- Entries put into `a` one after the other; one without a value takes its key out. -/
def override (a : Attributes) (es : Entries) : Attributes :=
  es.foldl (fun a (k, v) => if v = "" then a.erase k else a.insert k v) a

end Attributes

end NetPlot.Graph
