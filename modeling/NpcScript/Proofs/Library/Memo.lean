import Mathlib.Data.List.Dedup
import Mathlib.Data.List.Induction
import NpcScript.Library

/-! # The library remembers

A library hands out a script that it has made once for a path, whatever becomes of
the file, until it is cleared. The files are followed through a history of requests
as a function from paths to what they read as, so that anything may happen to them
between two requests (`NpcScript.Library.Shelf.load_after`).
-/

namespace NpcScript
namespace Library

/-! ## One load -/

section

variable {library : Library} {path : Path} {shared : SharedScript} (content : Content)

/-- A path that is in the cache is not read again. -/
theorem load_of_lookup (found : library.cache.lookup path.components = some shared) :
    library.load path content = (shared, [], library) := by
  rw [load, found]

/-- A path that is not in the cache is read and put there, with a script that is made for it or with
the one that does nothing. -/
theorem load_of_absent (absent : library.cache.lookup path.components = none) :
    library.load path content =
      match Script.ofFile library.symbols path content with
      | .ok script =>
          (⟨library.next, script⟩,
            if script.flags.contains .missingEnd then [.missingEnd path] else [],
            { library with next := library.next + 1 }.keep path ⟨library.next, script⟩)
      | .error cause => (noop, [.replaced path cause], library.keep path noop) := by
  cases compiled : Script.ofFile library.symbols path content <;>
    simp only [load, absent, compiled]

/-- What has been handed out for a path is in the cache. -/
theorem lookup_load (library : Library) (path : Path) :
    (library.load path content).2.2.cache.lookup path.components =
      some (library.load path content).1 := by
  cases found : library.cache.lookup path.components with
  | some shared => rw [load_of_lookup content found, found]
  | none =>
      rw [load_of_absent content found]
      cases Script.ofFile library.symbols path content <;> exact List.lookup_cons_self

/-- What is in the cache stays there. -/
theorem lookup_load_of_some {components : List String}
    (found : library.cache.lookup components = some shared) (path : Path) :
    (library.load path content).2.2.cache.lookup components = some shared := by
  cases known : library.cache.lookup path.components with
  | some other => rw [load_of_lookup content known, found]
  | none =>
      -- The new entry hides no other one, for its key was not in the cache.
      have apart : (components == path.components) = false := by
        rw [beq_eq_false_iff_ne]
        rintro rfl
        rw [found] at known
        cases known
      rw [load_of_absent content known]
      cases Script.ofFile library.symbols path content <;>
        exact (List.lookup_cons ..).trans (by rw [apart, ← found])

end

/-! ## What a library holds -/

/-- A library that holds scripts for the paths with the given components, one for each, all of them
made before the next one. -/
structure Holds (library : Library) (loaded : List (List String)) : Prop where
  distinct : (library.cache.map Prod.fst).Nodup
  keys : ∀ components, components ∈ library.cache.map Prod.fst ↔ components ∈ loaded
  noop_lt : noop.number < library.next
  lt : ∀ entry ∈ library.cache, entry.2.number < library.next

private theorem lookup_eq_none_iff (library : Library) (components : List String) :
    library.cache.lookup components = none ↔ components ∉ library.cache.map Prod.fst := by
  rw [List.lookup_eq_none_iff, List.mem_map]
  constructor
  · rintro others ⟨entry, member, rfl⟩
    exact bne_iff_ne.mp (others entry member) rfl
  · intro absent entry member
    exact bne_iff_ne.mpr fun same => absent ⟨entry, member, same.symm⟩

private theorem load_symbols (library : Library) (path : Path) (content : Content) :
    (library.load path content).2.2.symbols = library.symbols := by
  cases found : library.cache.lookup path.components with
  | some shared => rw [load_of_lookup content found]
  | none =>
      rw [load_of_absent content found]
      cases Script.ofFile library.symbols path content <;> rfl

private theorem next_le_load (library : Library) (path : Path) (content : Content) :
    library.next ≤ (library.load path content).2.2.next := by
  cases found : library.cache.lookup path.components with
  | some shared =>
      apply Nat.le_of_eq
      rw [load_of_lookup content found]
  | none =>
      rw [load_of_absent content found]
      cases Script.ofFile library.symbols path content with
      | ok script => exact Nat.le_succ _
      | error cause => exact Nat.le_refl _

namespace Holds

variable {library : Library} {loaded : List (List String)} (holds : library.Holds loaded)

include holds

/-- As many scripts as different paths. -/
theorem size_eq : library.size = loaded.dedup.length := by
  have same : (library.cache.map Prod.fst).Perm loaded.dedup := by
    rw [List.perm_ext_iff_of_nodup holds.distinct (List.nodup_dedup _)]
    intro components
    rw [holds.keys, List.mem_dedup]
  rw [size, ← same.length_eq, List.length_map]

private theorem clear : library.clear.Holds [] :=
  ⟨List.nodup_nil, by simp [Library.clear], holds.noop_lt, by simp [Library.clear]⟩

private theorem keep {path : Path} {shared : SharedScript} (absent : path.components ∉ loaded)
    (lt : shared.number < library.next) :
    (library.keep path shared).Holds (path.components :: loaded) := by
  constructor
  · exact List.nodup_cons.mpr ⟨fun known => absent ((holds.keys _).mp known), holds.distinct⟩
  · intro components
    rw [Library.keep, List.map_cons, List.mem_cons, List.mem_cons, holds.keys]
  · exact holds.noop_lt
  · intro entry member
    rcases List.mem_cons.mp member with rfl | old
    · exact lt
    · exact holds.lt entry old

/-- **One load.** The path is among the loaded ones behind it, and the script that it hands out was
made before the next one. -/
theorem load (path : Path) (content : Content) :
    (library.load path content).2.2.Holds (path.components :: loaded) ∧
      (library.load path content).1.number < (library.load path content).2.2.next := by
  cases found : library.cache.lookup path.components with
  | some shared =>
      obtain ⟨_, _, cache, _⟩ := List.lookup_eq_some_iff.mp found
      have member : (path.components, shared) ∈ library.cache := by simp [cache]
      have known : path.components ∈ loaded := (holds.keys _).mp (List.mem_map_of_mem member)
      rw [load_of_lookup content found]
      refine ⟨⟨holds.distinct, fun components => ?_, holds.noop_lt, holds.lt⟩, holds.lt _ member⟩
      rw [holds.keys, List.mem_cons, or_iff_right_of_imp]
      rintro rfl
      exact known
  | none =>
      have absent : path.components ∉ loaded := by
        rw [← holds.keys, ← lookup_eq_none_iff]
        exact found
      rw [load_of_absent content found]
      cases Script.ofFile library.symbols path content with
      | ok script =>
          have later : Holds { library with next := library.next + 1 } loaded :=
            ⟨holds.distinct, holds.keys, Nat.lt_succ_of_lt holds.noop_lt,
              fun entry member => Nat.lt_succ_of_lt (holds.lt entry member)⟩
          exact ⟨later.keep absent (Nat.lt_succ_self _), Nat.lt_succ_self _⟩
      | error cause => exact ⟨holds.keep absent holds.noop_lt, holds.noop_lt⟩

end Holds

/-! ## Histories of requests -/

/-- What may be asked of a library, and what may happen to the files in between. -/
inductive Request where
  | load (path : Path)
  | compilePath (path : Path)
  | compileSource (name source : String)
  | clear
  /-- From now on the paths read as told: files were made, overwritten or deleted. -/
  | change (files : Path → Content)

/-- What comes of a request. -/
inductive Answer where
  | handed (shared : SharedScript)
  | compiled (result : Except LoadError Script)
  | compiledSource (result : Except Diagnostics Script)
  | done

/-- A library with the files that it reads. -/
structure Shelf where
  library : Library
  /-- What every path reads as. -/
  files : Path → Content

namespace Request

/-- The components of the paths that have been loaded since the library was cleared, the last
first. -/
def loadedPaths (history : List Request) : List (List String) :=
  history.foldl (fun loaded request =>
    match request with
    | .load path => path.components :: loaded
    | .clear => []
    | _ => loaded) []

/-- A path has been loaded, and the library has not been cleared since. -/
def Loaded (history : List Request) (path : Path) : Prop :=
  ∃ before q since, history = before ++ .load q :: since ∧ .clear ∉ since ∧
    q.components = path.components

private theorem loadedPaths_snoc (history : List Request) (request : Request) :
    loadedPaths (history ++ [request]) =
      match request with
      | .load path => path.components :: loadedPaths history
      | .clear => []
      | _ => loadedPaths history := by
  rw [loadedPaths, List.foldl_append]
  rfl

private theorem Loaded.snoc {history : List Request} {path : Path} {request : Request}
    (was : Loaded history path) (keeps : request ≠ .clear) :
    Loaded (history ++ [request]) path := by
  obtain ⟨before, q, since, rfl, kept, same⟩ := was
  refine ⟨before, q, since ++ [request], by simp, ?_, same⟩
  rw [List.mem_append, List.mem_singleton]
  rintro (cleared | last)
  · exact kept cleared
  · exact keeps last.symm

private theorem Loaded.of_snoc {history : List Request} {path : Path} {request : Request}
    (now : Loaded (history ++ [request]) path) :
    (∃ q, request = .load q ∧ q.components = path.components) ∨
      request ≠ .clear ∧ Loaded history path := by
  obtain ⟨before, q, since, parts, kept, same⟩ := now
  -- The load is the last request itself, or it stands before the last one.
  rcases List.eq_nil_or_concat since with rfl | ⟨since, last, rfl⟩
  · exact .inl ⟨q, (List.append_singleton_inj.mp parts).2, same⟩
  · rw [List.concat_eq_append, ← List.cons_append, ← List.append_assoc,
      List.append_singleton_inj] at parts
    obtain ⟨earlier, rfl⟩ := parts
    rw [List.concat_eq_append, List.mem_append, List.mem_singleton, not_or] at kept
    exact .inr ⟨Ne.symm kept.2, before, q, since, earlier, kept.1, same⟩

/-- The list of the loaded paths holds what it should. -/
theorem mem_loadedPaths {history : List Request} {path : Path} :
    path.components ∈ loadedPaths history ↔ Loaded history path := by
  induction history using List.reverseRecOn with
  | nil =>
      refine ⟨fun member => absurd member List.not_mem_nil, ?_⟩
      rintro ⟨before, q, since, parts, _⟩
      simp at parts
  | append_singleton history request ih =>
      rw [loadedPaths_snoc]
      cases request with
      | load q =>
          rw [List.mem_cons, ih]
          constructor
          · rintro (same | was)
            · exact ⟨history, q, [], rfl, List.not_mem_nil, same.symm⟩
            · exact was.snoc nofun
          · intro now
            rcases now.of_snoc with ⟨_, ⟨⟩, same⟩ | ⟨_, was⟩
            · exact .inl same.symm
            · exact .inr was
      | clear =>
          refine ⟨fun member => absurd member List.not_mem_nil, fun now => ?_⟩
          rcases now.of_snoc with ⟨_, ⟨⟩, _⟩ | ⟨keeps, _⟩
          exact absurd rfl keeps
      | compilePath | compileSource | change =>
          rw [ih]
          refine ⟨fun was => was.snoc nofun, fun now => ?_⟩
          rcases now.of_snoc with ⟨_, ⟨⟩, _⟩ | ⟨_, was⟩
          exact was

end Request

namespace Shelf

/-- A request: its answer, what the library has to say about it, and the shelf behind it. -/
def ask (shelf : Shelf) : Request → Answer × List LibraryNote × Shelf
  | .load path =>
      let (shared, notes, library) := shelf.library.load path (shelf.files path)
      (.handed shared, notes, { shelf with library := library })
  | .compilePath path =>
      (.compiled (Script.ofFile shelf.library.symbols path (shelf.files path)), [], shelf)
  | .compileSource name source =>
      (.compiledSource (Script.compileSource name source shelf.library.symbols), [], shelf)
  | .clear => (.done, [], { shelf with library := shelf.library.clear })
  | .change files => (.done, [], { shelf with files := files })

private theorem ask_load (shelf : Shelf) (path : Path) :
    shelf.ask (.load path) =
      (.handed (shelf.library.load path (shelf.files path)).1,
        (shelf.library.load path (shelf.files path)).2.1,
        { shelf with library := (shelf.library.load path (shelf.files path)).2.2 }) := rfl

/-- The shelf behind a history of requests. -/
def after (shelf : Shelf) (history : List Request) : Shelf :=
  history.foldl (fun shelf request => (shelf.ask request).2.2) shelf

variable (shelf : Shelf) (history : List Request)

private theorem after_append (since : List Request) :
    shelf.after (history ++ since) = (shelf.after history).after since :=
  List.foldl_append

private theorem after_symbols : (shelf.after history).library.symbols = shelf.library.symbols := by
  induction history generalizing shelf with
  | nil => rfl
  | cons request history ih =>
      refine (ih _).trans ?_
      cases request with
      | load path => exact load_symbols ..
      | compilePath | compileSource | clear | change => rfl

private theorem next_le_after : shelf.library.next ≤ (shelf.after history).library.next := by
  induction history generalizing shelf with
  | nil => exact Nat.le_refl _
  | cons request history ih =>
      refine Nat.le_trans ?_ (ih _)
      cases request with
      | load path => exact next_le_load ..
      | compilePath | compileSource | clear | change => exact Nat.le_refl _

/-- What the library holds for a path stays there until the library is cleared. -/
theorem lookup_after {components : List String} {shared : SharedScript}
    (found : shelf.library.cache.lookup components = some shared) (kept : .clear ∉ history) :
    (shelf.after history).library.cache.lookup components = some shared := by
  induction history generalizing shelf with
  | nil => exact found
  | cons request history ih =>
      rw [List.mem_cons, not_or] at kept
      refine ih _ ?_ kept.2
      cases request with
      | load path => exact lookup_load_of_some _ found path
      | clear => exact absurd rfl kept.1
      | compilePath | compileSource | change => exact found

/-- Behind every history the library holds the paths that were loaded since it was cleared. -/
theorem holds_after (symbols : SymbolTable) (files : Path → Content) :
    ((Shelf.mk (.empty symbols) files).after history).library.Holds
      (Request.loadedPaths history) := by
  induction history using List.reverseRecOn with
  | nil => exact ⟨List.nodup_nil, fun _ => Iff.rfl, Nat.lt_succ_self _, by simp [empty, after]⟩
  | append_singleton history request ih =>
      rw [after_append, Request.loadedPaths_snoc]
      cases request with
      | load path => exact (ih.load path _).1
      | clear => exact ih.clear
      | compilePath | compileSource | change => exact ih

/-- What was handed out in a history was made before what is made behind it. -/
theorem number_lt_after (symbols : SymbolTable) (files : Path → Content) {before : List Request}
    {q : Path} {since : List Request} {shared : SharedScript} :
    let start : Shelf := ⟨.empty symbols, files⟩
    ((start.after before).ask (.load q)).1 = .handed shared →
      shared.number < (start.after (before ++ .load q :: since)).library.next := by
  intro start handed
  have made := ((holds_after before symbols files).load q ((start.after before).files q)).2
  have later := next_le_after ((start.after before).ask (.load q)).2.2 since
  rw [ask_load] at handed later
  cases handed
  rw [after_append]
  exact Nat.lt_of_lt_of_le made later

/-- **The library is a memo.** Whatever was asked before: a path that has not been loaded since the
library was cleared is read and compiled, and what is handed out for it is made for it alone, or it
is the script that does nothing if that failed; this is the only time that the library has something
to say about it. A path that has been loaded is handed out as it was then. Compiling leaves the
library as it is, and its size is the number of different paths loaded since it was cleared. -/
theorem load_after (symbols : SymbolTable) (files : Path → Content) (history : List Request) :
    let start : Shelf := ⟨.empty symbols, files⟩
    let shelf := start.after history
    (∀ path, ¬ Request.Loaded history path →
      match Script.ofFile symbols path (shelf.files path) with
      | .ok script =>
          ∃ number,
            (shelf.ask (.load path)).1 = .handed ⟨number, script⟩ ∧
            (shelf.ask (.load path)).2.1 =
              (if script.flags.contains .missingEnd then [.missingEnd path] else []) ∧
            number ≠ noop.number ∧
            ∀ before q since shared, history = before ++ .load q :: since →
              ((start.after before).ask (.load q)).1 = .handed shared → shared.number ≠ number
      | .error cause =>
          (shelf.ask (.load path)).1 = .handed noop ∧
          (shelf.ask (.load path)).2.1 = [.replaced path cause]) ∧
    (∀ before q since path, history = before ++ .load q :: since → .clear ∉ since →
      q.components = path.components →
        (shelf.ask (.load path)).1 = ((start.after before).ask (.load q)).1 ∧
        (shelf.ask (.load path)).2.1 = []) ∧
    (∀ path, shelf.ask (.compilePath path) =
      (.compiled (Script.ofFile symbols path (shelf.files path)), [], shelf)) ∧
    (∀ name source, shelf.ask (.compileSource name source) =
      (.compiledSource (Script.compileSource name source symbols), [], shelf)) ∧
    shelf.library.size = (Request.loadedPaths history).dedup.length := by
  intro start shelf
  have symbolsKept : shelf.library.symbols = symbols := start.after_symbols history
  have holds : shelf.library.Holds (Request.loadedPaths history) :=
    holds_after history symbols files
  refine ⟨?_, ?_, ?_, ?_, holds.size_eq⟩
  · intro path first
    have absent : shelf.library.cache.lookup path.components = none := by
      rw [lookup_eq_none_iff, holds.keys, Request.mem_loadedPaths]
      exact first
    rw [ask_load, load_of_absent _ absent, symbolsKept]
    cases Script.ofFile symbols path (shelf.files path) with
    | error cause => exact ⟨rfl, rfl⟩
    | ok script =>
        refine ⟨shelf.library.next, rfl, rfl, Nat.ne_of_gt holds.noop_lt, ?_⟩
        rintro before q since shared rfl handed
        exact Nat.ne_of_lt (number_lt_after symbols files handed)
  · rintro before q since path rfl kept same
    have found := lookup_load ((start.after before).files q) (start.after before).library q
    have stays := lookup_after ((start.after before).ask (.load q)).2.2 since found kept
    have now : shelf = ((start.after before).ask (.load q)).2.2.after since :=
      start.after_append before _
    rw [← now, same] at stays
    rw [ask_load, ask_load, load_of_lookup _ stays]
    exact ⟨rfl, rfl⟩
  · intro path
    rw [ask, symbolsKept]
  · intro name source
    rw [ask, symbolsKept]

end Shelf

end Library
end NpcScript
