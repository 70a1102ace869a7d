import Stencil.Proofs.Expr.Rules
import Stencil.Proofs.Session

/-!
# The views below a directory

A search below a directory finds only what lies strictly below it, so everything that is found has a
name as a view. If all of it can be read, loading the directory registers one plain view for each
file, in the order of the paths.
-/

namespace Stencil

namespace Files

open Expr.Grammar (bind_eq_ok ok_bind)

theorem exists_of_mapM {α β : Type} {f : α → Except Cause β} {xs : List α} {ys : List β}
    (h : xs.mapM f = .ok ys) {y : β} (hy : y ∈ ys) : ∃ x ∈ xs, f x = .ok y := by
  induction xs generalizing ys with
  | nil =>
    cases h
    cases hy
  | cons x xs ih =>
    rw [List.mapM_cons] at h
    obtain ⟨y', hx, hrest⟩ := bind_eq_ok.1 h
    obtain ⟨ys', hxs, hok⟩ := bind_eq_ok.1 hrest
    cases hok
    obtain rfl | hy := List.mem_cons.1 hy
    · exact ⟨x, .head _, hx⟩
    · obtain ⟨x', hx', hfx'⟩ := ih hxs hy
      exact ⟨x', .tail _ hx', hfx'⟩

/-- A file selected by a pattern is a child of the directory searched. -/
theorem exists_of_select_like {fs : Files} {p path : Path} {pattern : String} {paths : List Path}
    (h : fs.select p [.like pattern] = .ok paths) (hpath : path ∈ paths) :
    ∃ name, path = p.child name := by
  rw [select] at h
  obtain ⟨place, -, h⟩ := bind_eq_ok.1 h
  obtain ⟨found, hfound, hok⟩ := bind_eq_ok.1 h
  cases hok
  obtain ⟨list, hlist, hmem⟩ := List.mem_flatten.1 hpath
  obtain ⟨entry, -, hentry⟩ := exists_of_mapM hfound hlist
  rw [select] at hentry
  cases hentry
  exact ⟨entry.1, List.mem_singleton.1 hmem⟩

/-- What is found lies strictly below the directory. -/
theorem exists_of_find {fs : Files} {directory path : Path} {paths : List Path}
    (h : fs.find directory "*.html" = .ok paths) (hpath : path ∈ paths) :
    ∃ names name, path = (directory.descendant names).child name := by
  have hread : PathPattern.read "*.html" = .ok [.like "*.html"] := rfl
  rw [find, hread, ok_bind] at h
  obtain ⟨isDirectory, -, h⟩ := bind_eq_ok.1 h
  cases isDirectory with
  | false =>
    cases h
    cases hpath
  | true =>
    obtain ⟨found, hfound, hok⟩ := bind_eq_ok.1 h
    cases hok
    have hmem : path ∈ found := List.mem_eraseDups.1 (List.mem_mergeSort.1 hpath)
    rw [select] at hfound
    obtain ⟨place, -, hfound⟩ := bind_eq_ok.1 hfound
    obtain ⟨lists, hlists, hok⟩ := bind_eq_ok.1 hfound
    cases hok
    obtain ⟨list, hlist, hin⟩ := List.mem_flatten.1 hmem
    obtain ⟨names, -, hnames⟩ := exists_of_mapM hlists hlist
    obtain ⟨name, rfl⟩ := exists_of_select_like hnames hin
    exact ⟨names, name, rfl⟩

end Files

/-- Every file below the directory has a view name. -/
theorem Action.exists_viewName (directory : Path) (names : List String) (name : String) :
    ∃ s, viewName directory ((directory.descendant names).child name) = .ok s := by
  have hinside : ((directory.descendant names).child name).names.drop directory.names.length =
      names ++ [name] := by
    simp [Path.descendant, Path.child]
  rw [viewName, hinside, Path.withExtension]
  simp

namespace Action

open Session
open Expr.Grammar (bind_eq_ok)

/-- The view in a file below a directory, with the file as it stands. -/
def viewIn (files : Files) (directory : Path) (minifies : Bool) (path : Path) :
    Except Cause View := do
  return .plain (← viewName directory path) (← files.readText path) minifies

/-- What is found and can be read is a view. -/
theorem exists_viewIn {files : Files} {directory : Path} {found : List Path} {minifies : Bool}
    (hnames : ∀ path ∈ found, ∃ names name, path = (directory.descendant names).child name)
    (htexts : ∀ path ∈ found, ∃ text, files.readText path = .ok text) :
    ∃ views, found.mapM (viewIn files directory minifies) = .ok views := by
  induction found with
  | nil => exact ⟨[], rfl⟩
  | cons path found ih =>
    rw [List.forall_mem_cons] at hnames htexts
    obtain ⟨names, name, rfl⟩ := hnames.1
    obtain ⟨viewName, hviewName⟩ := exists_viewName directory names name
    obtain ⟨text, htext⟩ := htexts.1
    obtain ⟨views, hviews⟩ := ih hnames.2 htexts.2
    refine ⟨.plain viewName text minifies :: views, ?_⟩
    rw [List.mapM_cons, viewIn, hviewName, htext, hviews]
    rfl

variable {paths : List Path} {s : Session}

/-- The views are registered in the order in which they are found. The notice of a registration may
be written to a file, but to none that is still to be read. -/
theorem exists_run_views {files : Files} {minifies : Bool} {directory : Path} {found : List Path}
    {views : List View} (hs : s.Spares paths) (hminifies : s.answer "parser.minify" = .ok minifies)
    (hfiles : ∀ path ∈ paths, s.outlets.files.readText path = files.readText path)
    (hfound : ∀ path ∈ found, path ∈ paths)
    (hviews : found.mapM (viewIn files directory minifies) = .ok views) :
    ∃ s', s.run (found.mapM fun path => do
        let name ← check (viewName directory path)
        register name (← readFile path) .default) = (.ok views, s') ∧ s.Stays paths s' ∧
      s'.registry = views.foldl Registry.insert s.registry := by
  induction found generalizing s views with
  | nil =>
    cases hviews
    exact ⟨s, rfl, .refl s, rfl⟩
  | cons path found ih =>
    rw [List.forall_mem_cons] at hfound
    rw [List.mapM_cons] at hviews
    obtain ⟨v, hview, hviews⟩ := bind_eq_ok.1 hviews
    obtain ⟨vs, hvs, hok⟩ := bind_eq_ok.1 hviews
    cases hok
    obtain ⟨name, hname, hview⟩ := bind_eq_ok.1 hview
    obtain ⟨text, htext, hok⟩ := bind_eq_ok.1 hview
    cases hok
    obtain ⟨s₁, hregister, hstays, hregistry⟩ :=
      exists_run_register_default hs hminifies name text
    obtain ⟨s', hrest, hstays', hregistry'⟩ := ih (hstays.spares hs)
      ((hstays.answer _).trans hminifies)
      (fun path hpath => (hstays.text path hpath).trans (hfiles path hpath)) hfound.2 hvs
    refine ⟨s', ?_, hstays.trans hstays', by rw [hregistry', hregistry, List.foldl_cons]⟩
    have hread : s.run (readFile path) = (.ok text, s) :=
      run_readFile ((hfiles path hfound.1).trans htext)
    rw [List.mapM_cons, hname]
    simp only [bind_assoc]
    rw [run_bind_of_ok (run_check_ok s name), run_bind_of_ok hread, run_bind_of_ok hregister,
      run_bind_of_ok hrest, run_pure]

end Action

end Stencil
