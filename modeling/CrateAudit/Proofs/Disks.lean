/-
This file says what reading and writing do on a disk whose names are those that a file
system can have. A path from a root without two dots leads to the place of its own
names; a file that stands there is read as it is, and writing it changes nothing else.
-/

import CrateAudit.Proofs.Places

namespace CrateAudit

/-! ### Names that a file system can have -/

/-- Whether a directory can hold an entry with this name. -/
def isProperName (name : String) : Bool :=
  !name.isEmpty && name != "." && name != ".." && !name.toList.contains '/'

mutual

/-- Whether every entry of a tree has a proper name. -/
def Tree.hasProperNames : Tree → Bool
  | .file _ => true
  | .directory entries => Tree.haveProperNames entries

/-- The same for the entries of a directory. -/
def Tree.haveProperNames : List (String × Tree) → Bool
  | [] => true
  | (name, tree) :: rest =>
    isProperName name && tree.hasProperNames && Tree.haveProperNames rest

end

/-- Whether all names on a disk are proper. Every file system sees to that. -/
def Disk.isSound (disk : Disk) : Bool :=
  disk.tree.hasProperNames && disk.workingDirectory.all isProperName

theorem ne_parent_of_isProperName {name : String} (proper : isProperName name = true) :
    name ≠ ".." := by
  rintro rfl
  exact absurd proper (by decide)

theorem Tree.proper_of_lookup {entries : List (String × Tree)}
    (proper : Tree.haveProperNames entries = true) {name : String} {tree : Tree}
    (found : entries.lookup name = some tree) :
    isProperName name = true ∧ tree.hasProperNames = true := by
  induction entries with
  | nil => cases found
  | cons entry rest inductionHypothesis =>
    obtain ⟨own, sub⟩ := entry
    rw [Tree.haveProperNames, Bool.and_eq_true, Bool.and_eq_true] at proper
    rw [Tree.lookup_cons_eq] at found
    split at found
    · rename_i same
      cases found
      exact ⟨same ▸ proper.1.1, proper.1.2⟩
    · exact inductionHypothesis proper.2 found

/-- The names on the way to anything in a tree are proper, and those in it. -/
theorem Tree.proper_of_get? {tree found : Tree} {place : List String}
    (proper : tree.hasProperNames = true) (stands : tree.get? place = some found) :
    (∀ name ∈ place, isProperName name = true) ∧ found.hasProperNames = true := by
  induction place generalizing tree with
  | nil =>
    cases stands
    exact ⟨fun _ member => absurd member List.not_mem_nil, proper⟩
  | cons first rest inductionHypothesis =>
    cases tree with
    | file bytes => cases stands
    | directory entries =>
      rw [Tree.get?] at stands
      cases lookup : entries.lookup first with
      | none =>
        rw [lookup] at stands
        cases stands
      | some sub =>
        rw [lookup] at stands
        rw [Tree.hasProperNames] at proper
        obtain ⟨here, below⟩ := Tree.proper_of_lookup proper lookup
        obtain ⟨names, inside⟩ := inductionHypothesis below stands
        refine ⟨fun name member => ?_, inside⟩
        rcases List.mem_cons.mp member with rfl | later
        · exact here
        · exact names name later

/-! ### Plain paths -/

/-- A path from the root without two dots. -/
structure Path.IsPlain (path : Path) : Prop where
  start : path.start = .root
  names : ∀ name ∈ path.names, name ≠ ".."

namespace Path

theorem IsPlain.start_ne {path : Path} (plain : path.IsPlain) : path.start ≠ .relative := by
  rw [plain.start]
  decide

/-- The names that are left when names are followed are some of those before and some of those that
are not two dots. -/
theorem forall_mem_follow {fits : String → Prop} {places names : List String}
    (before : ∀ name ∈ places, fits name) (own : ∀ name ∈ names, name ≠ ".." → fits name) :
    ∀ name ∈ follow places names, fits name := by
  induction names generalizing places with
  | nil => exact before
  | cons name rest inductionHypothesis =>
    rw [List.forall_mem_cons] at own
    rw [follow]
    split
    · exact inductionHypothesis
        (fun other member => before other ((List.dropLast_sublist _).subset member)) own.2
    · rename_i proper
      refine inductionHypothesis (fun other member => ?_) own.2
      rcases List.mem_append.mp member with earlier | here
      · exact before other earlier
      · rw [List.mem_singleton.mp here]
        exact own.1 proper

theorem follow_of_plain {places names : List String} (plain : ∀ name ∈ names, name ≠ "..") :
    follow places names = places ++ names := by
  induction names generalizing places with
  | nil => rw [follow, List.append_nil]
  | cons name rest inductionHypothesis =>
    rw [follow, if_neg (plain name List.mem_cons_self),
      inductionHypothesis fun other member => plain other (List.mem_cons_of_mem _ member),
      List.append_assoc]
    rfl

end Path

namespace Disk

variable {disk : Disk} {path : Path}

/-- Whatever a path leads to, it leads there plainly. -/
theorem isPlain_resolve (sound : disk.isSound = true) (path : Path) :
    (disk.resolve path).IsPlain := by
  rw [isSound, Bool.and_eq_true, List.all_eq_true] at sound
  have working : ∀ name ∈ disk.workingDirectory, name ≠ ".." := fun name member =>
    ne_parent_of_isProperName (sound.2 name member)
  have empty : ∀ name ∈ ([] : List String), name ≠ ".." := fun _ member =>
    absurd member List.not_mem_nil
  rw [resolve, Path.resolve]
  cases path.start with
  | relative => exact ⟨rfl, Path.forall_mem_follow working fun _ _ apart => apart⟩
  | root => exact ⟨rfl, Path.forall_mem_follow empty fun _ _ apart => apart⟩
  | doubleRoot => exact ⟨rfl, Path.forall_mem_follow empty fun _ _ apart => apart⟩

theorem resolve_of_isPlain (plain : path.IsPlain) : disk.resolve path = path := by
  obtain ⟨start, names⟩ := path
  cases plain.start
  have same := @Path.follow_of_plain [] names plain.names
  rw [resolve, Path.resolve, same, List.nil_append]

theorem origin_of_isPlain (plain : path.IsPlain) : disk.origin path = [] := by
  rw [origin, plain.start]

end Disk

/-! ### Walking to a place -/

/-- A place inside another one. -/
theorem Tree.get?_append (tree : Tree) (place rest : List String) :
    tree.get? (place ++ rest) = (tree.get? place).bind (·.get? rest) := by
  induction place generalizing tree with
  | nil => rfl
  | cons name others inductionHypothesis =>
    cases tree with
    | file bytes => rfl
    | directory entries =>
      rw [List.cons_append, Tree.get?, Tree.get?]
      cases entries.lookup name with
      | none => rfl
      | some sub => exact inductionHypothesis sub

/-- What names lead on from has to be a directory with the first of them. -/
theorem Tree.directory_of_get?_append {tree found : Tree} {place rest : List String}
    {name : String} (stands : tree.get? (place ++ name :: rest) = some found) :
    ∃ entries, tree.get? place = some (.directory entries) ∧
      (entries.lookup name).isSome = true := by
  rw [Tree.get?_append, Option.bind_eq_some_iff] at stands
  obtain ⟨here, stands, below⟩ := stands
  cases here with
  | file bytes => cases below
  | directory entries =>
    refine ⟨entries, stands, ?_⟩
    rw [Tree.get?] at below
    cases lookup : entries.lookup name with
    | none =>
      rw [lookup] at below
      cases below
    | some sub => rfl

namespace Disk

/-- Names without two dots lead to their own place, if anything stands there. -/
theorem walk_of_get? {tree found : Tree} {path : Path} {place names : List String}
    (plain : ∀ name ∈ names, name ≠ "..") (stands : tree.get? (place ++ names) = some found) :
    walk tree path place names = .ok (place ++ names) := by
  induction names generalizing place with
  | nil => rw [walk, List.append_nil]
  | cons name rest inductionHypothesis =>
    obtain ⟨entries, here, isThere⟩ := Tree.directory_of_get?_append stands
    have shift : place ++ name :: rest = place ++ [name] ++ rest := by
      rw [List.append_assoc]
      rfl
    rw [walk, here]
    simp only
    rw [if_neg (plain name List.mem_cons_self), if_pos isThere, shift]
    rw [shift] at stands
    exact inductionHypothesis (fun other member => plain other (List.mem_cons_of_mem _ member))
      stands

/-- Names without two dots lead nowhere else. -/
theorem place_of_walk {tree : Tree} {path : Path} {place names reached : List String}
    (plain : ∀ name ∈ names, name ≠ "..") (walked : walk tree path place names = .ok reached) :
    reached = place ++ names := by
  induction names generalizing place with
  | nil =>
    cases walked
    rw [List.append_nil]
  | cons name rest inductionHypothesis =>
    rw [walk] at walked
    split at walked
    · cases walked
    · cases walked
    · rw [if_neg (plain name List.mem_cons_self)] at walked
      split at walked
      · have reached := inductionHypothesis
          (fun other member => plain other (List.mem_cons_of_mem _ member)) walked
        rw [reached, List.append_assoc]
        rfl
      · cases walked

/-- A plain path leads to what stands at the place of its names. -/
theorem lookup_eq_ok {disk : Disk} {path : Path} (plain : path.IsPlain) {tree : Tree} :
    disk.lookup path = .ok tree ↔ disk.tree.get? path.names = some tree := by
  have start : disk.locate path = walk disk.tree path [] path.names := by
    rw [locate, origin_of_isPlain plain]
  constructor
  · intro found
    cases located : disk.locate path with
    | error fault =>
      rw [lookup, located] at found
      cases found
    | ok place =>
      rw [start] at located
      have same := place_of_walk plain.names located
      rw [List.nil_append] at same
      subst same
      rw [lookup, start, located] at found
      simp only [bind, Except.bind] at found
      split at found
      · rename_i tree' stands
        cases found
        exact stands
      · cases found
  · intro stands
    have walked : walk disk.tree path [] path.names = .ok ([] ++ path.names) :=
      walk_of_get? plain.names stands
    rw [lookup, start, walked]
    simp only [bind, Except.bind, List.nil_append, stands]
    rfl

theorem holdsDirectory_of_isPlain {disk : Disk} {path : Path} (plain : path.IsPlain) :
    disk.holdsDirectory path = true ↔ disk.tree.view path.names = some none := by
  rw [Tree.view_eq_directory, holdsDirectory]
  constructor
  · intro holds
    cases found : disk.lookup path with
    | error fault =>
      rw [found] at holds
      cases holds
    | ok tree =>
      rw [found] at holds
      cases tree with
      | file bytes => cases holds
      | directory entries => exact ⟨entries, (lookup_eq_ok plain).mp found⟩
  · rintro ⟨entries, stands⟩
    rw [(lookup_eq_ok plain).mpr stands]
    rfl

/-! ### Reading and writing -/

theorem fileBytes_eq_ok {disk : Disk} {path : Path} (plain : path.IsPlain) {bytes : Bytes} :
    disk.fileBytes path = .ok bytes ↔ disk.tree.view path.names = some (some bytes) := by
  rw [Tree.view_eq_file, ← lookup_eq_ok plain, fileBytes]
  cases disk.lookup path with
  | error fault => simp [bind, Except.bind]
  | ok tree =>
    cases tree with
    | file own => simp [bind, Except.bind, pure, Except.pure]
    | directory entries => simp [bind, Except.bind, throw, throwThe, MonadExceptOf.throw]

/-- What is read is the text of the bytes that stand there. -/
theorem readText_eq_ok {disk : Disk} {path : Path} (plain : path.IsPlain) {text : List Char} :
    disk.readText path = .ok text ↔ path.names ∉ disk.unreadable ∧
      ∃ bytes, disk.tree.view path.names = some (some bytes) ∧
        text = Text.unifyLineFeeds (Text.decode bytes) := by
  rw [readText, resolve_of_isPlain plain]
  by_cases denied : path.names ∈ disk.unreadable
  · simp [denied, bind, Except.bind, throw, throwThe, MonadExceptOf.throw]
  · simp only [List.contains_eq_mem, denied, decide_false, Bool.false_eq_true, if_false,
      not_false_eq_true, true_and, ← fileBytes_eq_ok plain, bind, Except.bind, pure, Except.pure]
    cases disk.fileBytes path with
    | error fault => simp
    | ok bytes =>
      simp only [Except.ok.injEq]
      constructor
      · exact fun same => ⟨bytes, rfl, same.symm⟩
      · rintro ⟨_, rfl, same⟩
        exact same.symm

/-- No directory is made where all stand. -/
theorem makeDirectories_of_get? {tree found : Tree} {path : Path} {place names rest : List String}
    (plain : ∀ name ∈ names, name ≠ "..") (nonempty : rest ≠ [])
    (stands : tree.get? (place ++ names ++ rest) = some found) :
    makeDirectories path tree place names = .ok (tree, place ++ names) := by
  induction names generalizing place with
  | nil => rw [makeDirectories, List.append_nil]
  | cons name others inductionHypothesis =>
    have shift : place ++ name :: others = place ++ [name] ++ others := by
      rw [List.append_assoc]
      rfl
    rw [shift] at stands
    obtain ⟨entries, here⟩ :
        ∃ entries, tree.get? (place ++ [name]) = some (.directory entries) := by
      rw [List.append_assoc] at stands
      obtain ⟨next, later, more⟩ : ∃ next later, others ++ rest = next :: later :=
        List.exists_cons_of_ne_nil (by simp [nonempty])
      rw [more] at stands
      obtain ⟨entries, here, _⟩ := Tree.directory_of_get?_append stands
      exact ⟨entries, here⟩
    rw [makeDirectories, if_neg (plain name List.mem_cons_self), here, shift]
    exact inductionHypothesis (fun other member => plain other (List.mem_cons_of_mem _ member))
      stands

/-- Writing where a file stands puts the bytes of the text there, unless it is forbidden. -/
theorem writeText_of_file {disk : Disk} {path : Path} (plain : path.IsPlain) {old : Bytes}
    (stands : disk.tree.view path.names = some (some old)) (text : List Char) :
    disk.writeText path text =
      if path.names ∈ disk.unwritable then .error .readOnly
      else .ok { disk with tree := Tree.set (.file (Text.encode text)) path.names disk.tree } := by
  have parentPlain : path.parent.IsPlain :=
    ⟨plain.start, fun name member => plain.names name ((List.dropLast_sublist _).subset member)⟩
  rw [writeText, resolve_of_isPlain plain]
  by_cases forbidden : path.names ∈ disk.unwritable
  · simp [forbidden, bind, Except.bind, throw, throwThe, MonadExceptOf.throw]
  cases last : path.names.getLast? with
  | none =>
    have root := List.getLast?_eq_none_iff.mp last
    have made : makeDirectories path.parent disk.tree [] path.parent.names =
        .ok (disk.tree, []) := by
      rw [Path.parent, root]
      rfl
    simp only [List.contains_eq_mem, forbidden, decide_false, Bool.false_eq_true, if_false, bind,
      Except.bind, origin_of_isPlain plain, made]
    rw [root] at stands ⊢
    rw [writeAt, Tree.view_eq_file.mp stands]
  | some name =>
    obtain ⟨init, whole⟩ := List.getLast?_eq_some_iff.mp last
    have names : path.parent.names = init := by
      rw [Path.parent, whole, List.dropLast_concat]
    have made : makeDirectories path.parent disk.tree [] path.parent.names =
        .ok (disk.tree, path.parent.names) := by
      have stands' := Tree.view_eq_file.mp stands
      rw [whole, ← names, ← List.nil_append path.parent.names] at stands'
      exact makeDirectories_of_get? parentPlain.names (List.cons_ne_nil name []) stands'
    have proper : name ≠ ".." := plain.names name (List.mem_of_getLast? last)
    have target : path.parent.names ++ [name] = path.names := by rw [names, whole]
    simp only [List.contains_eq_mem, forbidden, decide_false, Bool.false_eq_true, if_false, bind,
      Except.bind, origin_of_isPlain plain, made, proper, target]
    rw [writeAt, Tree.view_eq_file.mp stands]

end Disk

end CrateAudit
