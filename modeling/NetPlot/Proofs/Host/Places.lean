/-
  Where paths lead.

  1. **Names** — the stem of a path has no slash in it (`not_mem_of_stem?`), and a path that is seen
     from a directory ends in the name that is looked for there (`exists_text_join`).

  2. **Steps** — names are followed one after the other (`follow_append`), and a plain name leads one
     step down, so a path that ends in one leads to a place of that name
     (`getLast?_of_locate_join`).

  3. **Making files** — a path that leads somewhere goes through directories only, so a file that is
     made where nothing was changes where no path leads (`locate_put_iff`).

  Different paths may lead to one place.  So to say which files a run changes is to say where the
  paths lead that it writes to.
-/
import NetPlot.Config.Basic
import NetPlot.Host.Files
import NetPlot.Proofs.Text.Cut

namespace NetPlot

open NetPlot.Text

/-! ## Names -/

/-- A name that leads one step down. -/
structure IsPlain (name : String) : Prop where
  slash : '/' ∉ name.toList
  nonempty : name ≠ ""
  dot : name ≠ "."
  dots : name ≠ ".."

namespace Path

/-- A file name is a part of a path between slashes. -/
theorem not_mem_of_fileName? {p : Path} {name : String} (h : p.fileName? = some name) :
    '/' ∉ name.toList := by
  rw [fileName?] at h
  split at h
  · cases h
  next rev hrev =>
    dsimp only at h
    split at h
    · cases h
    · cases h
      rw [String.toList_ofList, List.mem_reverse]
      -- the name was taken from the end up to the first slash
      intro hmem
      have hne := List.all_eq_true.1 (List.all_takeWhile (p := (· != '/'))) '/' hmem
      exact bne_iff_ne.1 hne rfl

/-- A stem has no slash in it. -/
theorem not_mem_of_stem? {p : Path} {stem : String} (h : p.stem? = some stem) :
    '/' ∉ stem.toList := by
  obtain ⟨name, hname, hstem⟩ := Option.map_eq_some_iff.1 h
  have hslash := not_mem_of_fileName? hname
  simp only at hstem
  split at hstem
  next c d cs hrev =>
    -- the stem is a part of the file name
    have hsub : d :: cs ⊆ name.toList.reverse := fun x hx =>
      (List.dropWhile_sublist _).subset (hrev ▸ List.mem_cons_of_mem c hx)
    rw [← hstem, String.toList_ofList, List.mem_reverse]
    exact fun hmem => hslash (List.mem_reverse.1 (hsub hmem))
  next => exact hstem ▸ hslash

/-- A path that is seen from a directory ends in the name that is looked for there. -/
theorem exists_text_join (dir : Path) {name : String} (h : '/' ∉ name.toList) :
    (dir.join name).text.toList = name.toList ∨
      ∃ front, (dir.join name).text.toList = front ++ '/' :: name.toList := by
  have hhead : name.toList.head? ≠ some '/' := fun hhead => h (List.mem_of_head? hhead)
  rw [join, if_neg hhead]
  -- no separator is put where there is nothing in front or one stands there already
  split
  next hdir =>
    rcases hdir with hdir | hdir
    · left
      simp [hdir]
    · right
      obtain ⟨front, hfront⟩ := List.getLast?_eq_some_iff.1 hdir
      refine ⟨front, ?_⟩
      simp [hfront]
  next =>
    right
    refine ⟨dir.text.toList, ?_⟩
    simp

end Path

/-- The DOT file of a run has a plain name. -/
theorem Settings.isPlain_dot {input : Path} {outputDir : Option Path} {c : Config} {s : Settings}
    (h : new? input outputDir c = some s) : IsPlain (s.rootName ++ "." ++ "dot") := by
  rw [new?] at h
  split at h
  · cases h
  next stem hstem =>
    split at h
    · cases h
    · cases h
      have hslash := Path.not_mem_of_stem? hstem
      -- the ending alone makes the name longer than the names that lead elsewhere
      have hlong : 4 ≤ (stem ++ "." ++ "dot").length := by
        rw [String.length_append, String.length_append]
        show 4 ≤ stem.length + 1 + 3
        omega
      refine ⟨?_, ?_, ?_, ?_⟩
      · simp [hslash]
      all_goals
        intro heq
        rw [heq] at hlong
        revert hlong
        decide

namespace Files

/-! ## Steps

A way through the files is followed name by name.  Only the last name matters for where it ends, as
long as that name is a plain one. -/

/-- A way that is followed in two parts goes on from where the first part led. -/
theorem follow_append (fs : Files) (here : Location) (xs ys : List String) :
    fs.follow here (xs ++ ys) = (fs.follow here xs).bind fun l => fs.follow l ys := by
  -- name by name, with the place that has been reached
  induction xs generalizing here with
  | nil => rfl
  | cons name xs ih =>
    rw [List.cons_append, follow, follow]
    split
    · rfl
    · split
      · exact ih here
      · split
        · exact ih here.dropLast
        · split
          · rfl
          · exact ih (here ++ [name])
    · rfl

/-- A plain name at the end is the last one of the location. -/
theorem getLast?_of_follow {fs : Files} {here l : Location} {xs : List String} {name : String}
    (h : fs.follow here (xs ++ [name]) = .ok l) (hname : IsPlain name) :
    l.getLast? = some name := by
  rw [follow_append] at h
  cases hxs : fs.follow here xs with
  | error e =>
    rw [hxs] at h
    cases h
  | ok k =>
    rw [hxs] at h
    replace h : fs.follow k [name] = .ok l := h
    rw [follow] at h
    split at h
    · cases h
    -- a plain name neither stays in place nor leads up
    · rw [if_neg (by simp [hname.nonempty, hname.dot]), if_neg hname.dots] at h
      split at h
      · cases h
      · cases h
        exact List.getLast?_concat
    · cases h

/-- A path from a directory to a plain name leads to a place of that name. -/
theorem getLast?_of_locate_join {fs : Files} {dir : Path} {name : String} {l : Location}
    (h : fs.locate (dir.join name) = .ok l) (hname : IsPlain name) : l.getLast? = some name := by
  -- the slash in front of the name is the last one
  have hpieces : ∃ ps, pieces '/' [] (dir.join name).text.toList = ps ++ [name.toList] := by
    have hlast : pieces '/' [] name.toList = [name.toList] := by
      refine pieces_of_not_infix fun hmark => hname.slash (hmark.subset ?_)
      exact List.mem_singleton_self '/'
    rcases Path.exists_text_join dir hname.slash with htext | ⟨front, htext⟩
    · exact ⟨[], by rw [htext, hlast]; rfl⟩
    · exact ⟨pieces '/' [] front, by rw [htext, pieces_append_cons, hlast]⟩
  obtain ⟨ps, hps⟩ := hpieces
  rw [locate] at h
  simp only [hps, List.map_append, List.map_cons, List.map_nil, String.ofList_toList] at h
  split at h
  · cases h
  · split at h
    · cases h
    · split at h
      · cases h
      · exact getLast?_of_follow h hname

/-! ## Making files -/

section

variable {fs : Files} {l : Location} {e : Entry}

theorem ne_nil_of_find?_eq_none (h : fs.find? l = none) : l ≠ [] := by
  rintro rfl
  cases h

/-- A new file changes no way: what is not a directory cannot be passed through. -/
theorem follow_put_iff (habsent : fs.find? l = none) (hfile : e ≠ .directory) {here k : Location}
    {names : List String} :
    (fs.put l e).follow here names = .ok k ↔ fs.follow here names = .ok k := by
  induction names generalizing here with
  | nil => rfl
  | cons name names ih =>
    rw [follow, follow, find?_put fs (ne_nil_of_find?_eq_none habsent)]
    -- a way through the new file came to nothing before, and now to a file
    by_cases hl : here = l
    · rw [if_pos hl, hl, habsent]
      cases e <;> simp at hfile ⊢
    · rw [if_neg hl]
      split
      · exact Iff.rfl
      · split
        · exact ih
        · split
          · exact ih
          · split
            · exact Iff.rfl
            · exact ih
      · exact Iff.rfl

/-- A file that is made where nothing was changes where no path leads. -/
theorem locate_put_iff (habsent : fs.find? l = none) (hfile : e ≠ .directory) {p : Path}
    {k : Location} : (fs.put l e).locate p = .ok k ↔ fs.locate p = .ok k := by
  rw [locate, locate]
  split
  · exact Iff.rfl
  · split
    · exact Iff.rfl
    · split
      · exact Iff.rfl
      · exact follow_put_iff habsent hfile

end

end Files

end NetPlot
