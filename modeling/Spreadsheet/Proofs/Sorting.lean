/-
What a dependency list says and how it is sorted. The lines of a text are
what stands between its line feeds; a line says that a name depends on
another by a rule that mentions neither pieces nor trimming (`Says`). After
every line the entries hold what has been said so far (`Entries.Hold`): one
line adds what it says (`addLines_cons`), and the first line that cannot be
read ends the reading. The list made of them records it, name by name
(`Entries.Hold.records`). The plan for all the names then sorts by what was
said (`sorted_unless_cyclic`), and by nothing else: the graph of a list also
holds the order in which its edges were made, and the search loses it
(`sorted_of_sameEdges`, `sorted_of_same_pairs`).
-/
import Spreadsheet.DependencyList
import Spreadsheet.Proofs.Lines
import Spreadsheet.Proofs.Plan

namespace Spreadsheet

open Relation

namespace DependencyList

/-! ## Lines -/

/-- A line says that a name depends on another if there is one colon in it, the name before the
colon and the other name after it. -/
inductive Says : List Char → String → String → Prop
  | intro {before after : List Char} {name dependency : String} (hbefore : ':' ∉ before)
      (hafter : ':' ∉ after) (hname : Bears before name.toList)
      (hdependency : Bears after dependency.toList) :
      Says (before ++ ':' :: after) name dependency

/-- A line can be read if it is blank or there is exactly one colon in it, with more than blanks on
both sides. -/
def Readable (line : List Char) : Prop :=
  Blank line ∨ ∃ before after, line = before ++ ':' :: after ∧ ':' ∉ before ∧ ':' ∉ after ∧
    ¬ Blank before ∧ ¬ Blank after

/-- A list of lines says that a name depends on another. -/
def Listed (lines : List (List Char)) (name dependency : String) : Prop :=
  ∃ line ∈ lines, Says line name dependency

theorem readable_iff {line : List Char} :
    Readable line ↔ Blank line ∨ ∃ name dependency, Says line name dependency := by
  refine or_congr_right ⟨?_, ?_⟩
  · rintro ⟨before, after, rfl, hbefore, hafter, hname, hdependency⟩
    obtain ⟨name, hname⟩ := exists_bears.2 hname
    obtain ⟨dependency, hdependency⟩ := exists_bears.2 hdependency
    exact ⟨String.ofList name, String.ofList dependency, .intro hbefore hafter
      (by rwa [String.toList_ofList]) (by rwa [String.toList_ofList])⟩
  · rintro ⟨name, dependency, ⟨hbefore, hafter, hname, hdependency⟩⟩
    exact ⟨_, _, rfl, hbefore, hafter, exists_bears.1 ⟨_, hname⟩, exists_bears.1 ⟨_, hdependency⟩⟩

theorem Says.not_blank {line : List Char} {name dependency : String}
    (h : Says line name dependency) : ¬ Blank line := by
  obtain ⟨-, -, -, -⟩ := h
  exact fun hblank => absurd (hblank ':' (by simp)) (by decide)

/-! ## Reading a line -/

theorem readLine_of_not_mem {line : List Char} (h : ':' ∉ line) :
    readLine line = .error (if (trimChars line).isEmpty then .noName else .noDependency) := by
  have hpieces : splitAtChar ':' line = [line] := by
    rw [splitAtChar_eq_splitOn, List.splitOn_eq_singleton h]
  rw [readLine, hpieces]
  dsimp only [List.headD, List.tail]
  split <;> rfl

theorem readLine_pair {before after : List Char} (hbefore : ':' ∉ before) (hafter : ':' ∉ after) :
    readLine (before ++ ':' :: after) =
      if (trimChars before).isEmpty then .error .noName
      else if (trimChars after).isEmpty then .error .noDependency
      else .ok (String.ofList (trimChars before), String.ofList (trimChars after)) := by
  rw [readLine, splitAtChar_pair hbefore hafter]
  rfl

theorem readLine_many {before middle after : List Char} (hbefore : ':' ∉ before)
    (hmiddle : ':' ∉ middle) :
    readLine (before ++ ':' :: (middle ++ ':' :: after)) = .error .manySeparators := by
  obtain ⟨piece, pieces, hpieces⟩ := List.exists_cons_of_ne_nil (List.splitOn_ne_nil ':' after)
  rw [readLine, splitAtChar_eq_splitOn, List.splitOn_append_cons_self_of_not_mem hbefore,
    List.splitOn_append_cons_self_of_not_mem hmiddle, hpieces]

theorem readLine_eq_ok {line : List Char} {name dependency : String} :
    readLine line = .ok (name, dependency) ↔ Says line name dependency := by
  constructor
  · intro h
    rcases separator_cases ':' line with hcolon | ⟨before, after, rfl, hbefore, hafter⟩ |
      ⟨before, middle, after, rfl, hbefore, hmiddle⟩
    · rw [readLine_of_not_mem hcolon] at h
      cases h
    · rw [readLine_pair hbefore hafter] at h
      split at h
      · cases h
      · rename_i hname
        split at h
        · cases h
        · rename_i hdependency
          cases h
          refine .intro hbefore hafter (bears_iff.2 ?_) (bears_iff.2 ?_)
          · rw [String.toList_ofList]
            exact ⟨rfl, fun hnil => hname (List.isEmpty_iff.2 hnil)⟩
          · rw [String.toList_ofList]
            exact ⟨rfl, fun hnil => hdependency (List.isEmpty_iff.2 hnil)⟩
    · rw [readLine_many hbefore hmiddle] at h
      cases h
  · rintro ⟨hbefore, hafter, hname, hdependency⟩
    obtain ⟨hname, hnameNe⟩ := bears_iff.1 hname
    obtain ⟨hdependency, hdependencyNe⟩ := bears_iff.1 hdependency
    rw [readLine_pair hbefore hafter, hname, hdependency, if_neg (by simpa using hnameNe),
      if_neg (by simpa using hdependencyNe), String.ofList_toList, String.ofList_toList]

theorem Says.unique {line : List Char} {name dependency name' dependency' : String}
    (h : Says line name dependency) (h' : Says line name' dependency') :
    name' = name ∧ dependency' = dependency := by
  have heq := (readLine_eq_ok.2 h').symm.trans (readLine_eq_ok.2 h)
  cases heq
  exact ⟨rfl, rfl⟩

theorem readLine_append_return (line : List Char) :
    readLine (line ++ ['\r']) = readLine line := by
  have hreturn : ∀ {s : List Char}, ':' ∉ s → ':' ∉ s ++ ['\r'] := fun h => by simp [h]
  rcases separator_cases ':' line with hcolon | ⟨before, after, rfl, hbefore, hafter⟩ |
    ⟨before, middle, after, rfl, hbefore, hmiddle⟩
  · rw [readLine_of_not_mem (hreturn hcolon), readLine_of_not_mem hcolon,
      trimChars_append_blank blank_return]
  · rw [List.append_assoc, List.cons_append, readLine_pair hbefore (hreturn hafter),
      readLine_pair hbefore hafter, trimChars_append_blank blank_return]
  · rw [readLine_many hbefore hmiddle, List.append_assoc, List.cons_append, List.append_assoc,
      List.cons_append, readLine_many hbefore hmiddle]

/-! ## Reading lines -/

/-- A line is blank and is skipped, or it says something that is added, or it cannot be read and
fails with its number. -/
theorem addLines_cons (entries : Entries) (number : Nat) (line : List Char)
    (rest : List (List Char)) :
    (Blank line ∧ entries.addLines number (line :: rest) = entries.addLines (number + 1) rest) ∨
      (∃ name dependency, Says line name dependency ∧ entries.addLines number (line :: rest) =
        (entries.add name dependency).addLines (number + 1) rest) ∨
      (¬ Readable line ∧
        ∃ fault, entries.addLines number (line :: rest) = .error (.line number fault)) := by
  by_cases hblank : Blank line
  · refine .inl ⟨hblank, ?_⟩
    rw [Entries.addLines, if_pos (by rw [trimChars_eq_nil.2 hblank]; rfl)]
  · have hne : ¬ (trimChars line).isEmpty = true :=
      fun h => hblank (trimChars_eq_nil.1 (List.isEmpty_iff.1 h))
    rw [Entries.addLines, if_neg hne]
    cases hread : readLine line with
    | ok said =>
      exact .inr (.inl ⟨said.1, said.2, readLine_eq_ok.1 hread, rfl⟩)
    | error fault =>
      refine .inr (.inr ⟨fun hreadable => ?_, fault, rfl⟩)
      rcases readable_iff.1 hreadable with h | ⟨name, dependency, h⟩
      · exact hblank h
      · cases hread.symm.trans (readLine_eq_ok.2 h)

/-- Entries hold what has been said on some lines, and no name of which nothing was said. -/
structure Entries.Hold (entries : Entries) (lines : List (List Char)) : Prop where
  mem_entry : ∀ a b, b ∈ entries.getD a [] ↔ Listed lines a b
  entry_ne_nil : ∀ a : String, entries[a]? ≠ some []

theorem Entries.Hold.empty : Entries.Hold ∅ [] := by
  constructor <;> simp [Listed]

theorem listed_append_singleton {lines : List (List Char)} {line : List Char} {a b : String} :
    Listed (lines ++ [line]) a b ↔ Listed lines a b ∨ Says line a b := by
  simp [Listed, or_and_right, exists_or]

theorem Entries.Hold.skip {entries : Entries} {lines : List (List Char)} {line : List Char}
    (h : entries.Hold lines) (hblank : Blank line) : entries.Hold (lines ++ [line]) where
  mem_entry a b := by
    rw [h.mem_entry, listed_append_singleton]
    exact (or_iff_left fun hsaid => hsaid.not_blank hblank).symm
  entry_ne_nil := h.entry_ne_nil

theorem Entries.Hold.add {entries : Entries} {lines : List (List Char)} {line : List Char}
    {name dependency : String} (h : entries.Hold lines) (hsaid : Says line name dependency) :
    (entries.add name dependency).Hold (lines ++ [line]) where
  mem_entry a b := by
    have hmore : Says line a b ↔ a = name ∧ b = dependency :=
      ⟨hsaid.unique, fun ⟨ha, hb⟩ => ha ▸ hb ▸ hsaid⟩
    rw [listed_append_singleton, hmore, ← h.mem_entry, Entries.add, Std.ExtTreeMap.getD_insert]
    by_cases ha : a = name
    · subst ha
      simp
    · simp [ha, Ne.symm ha]
  entry_ne_nil a := by
    rw [Entries.add, Std.ExtTreeMap.getElem?_insert]
    split
    · simp
    · exact h.entry_ne_nil a

theorem Entries.Hold.addLines {rest : List (List Char)} : ∀ {entries : Entries} (number : Nat)
    {lines : List (List Char)}, entries.Hold lines → (∀ line ∈ rest, Readable line) →
      ∃ entries', entries.addLines number rest = .ok entries' ∧ entries'.Hold (lines ++ rest) := by
  -- each line goes from those to come to those that the entries hold
  induction rest with
  | nil => exact fun {entries} _ {lines} h _ => ⟨entries, rfl, by rwa [List.append_nil]⟩
  | cons line rest ih =>
    intro entries number lines h hreadable
    have hrest := (List.forall_mem_cons.1 hreadable).2
    rw [List.append_cons]
    rcases addLines_cons entries number line rest with
      ⟨hblank, hstep⟩ | ⟨name, dependency, hsaid, hstep⟩ | ⟨hnot, -⟩
    · rw [hstep]
      exact ih _ (h.skip hblank) hrest
    · rw [hstep]
      exact ih _ (h.add hsaid) hrest
    · exact absurd (hreadable line List.mem_cons_self) hnot

theorem addLines_error {before after : List (List Char)} {line : List Char}
    (hline : ¬ Readable line) : ∀ (entries : Entries) (number : Nat),
      (∀ earlier ∈ before, Readable earlier) →
        ∃ fault, entries.addLines number (before ++ line :: after) =
          .error (.line (number + before.length) fault) := by
  induction before with
  | nil =>
    intro entries number _
    rcases addLines_cons entries number line after with ⟨hblank, -⟩ | ⟨_, _, hsaid, -⟩ | ⟨-, herror⟩
    · exact absurd (.inl hblank) hline
    · exact absurd (readable_iff.2 (.inr ⟨_, _, hsaid⟩)) hline
    · exact herror
  | cons earlier before ih =>
    intro entries number hbefore
    obtain ⟨hearlier, hbefore⟩ := List.forall_mem_cons.1 hbefore
    rw [List.length_cons, Nat.add_comm before.length, ← Nat.add_assoc, List.cons_append]
    rcases addLines_cons entries number earlier (before ++ line :: after) with
      ⟨-, hstep⟩ | ⟨_, _, -, hstep⟩ | ⟨hnot, -⟩
    · rw [hstep]
      exact ih _ _ hbefore
    · rw [hstep]
      exact ih _ _ hbefore
    · exact absurd hearlier hnot

/-- If not all lines can be read, one of them is the first that cannot. -/
theorem exists_first_unreadable {lines : List (List Char)} (h : ¬ ∀ line ∈ lines, Readable line) :
    ∃ before line after, lines = before ++ line :: after ∧
      (∀ earlier ∈ before, Readable earlier) ∧ ¬ Readable line := by
  classical
  obtain ⟨line, hfind⟩ : ∃ line, lines.find? (fun m => decide (¬ Readable m)) = some line := by
    rw [← Option.isSome_iff_exists, List.find?_isSome]
    simpa using h
  obtain ⟨hline, before, after, rfl, hbefore⟩ := List.find?_eq_some_iff_append.1 hfind
  exact ⟨before, line, after, rfl, by simpa using hbefore, by simpa using hline⟩

/-! ## Reading a text -/

theorem addLines_dropReturn (entries : Entries) (number : Nat) (line : List Char)
    (rest : List (List Char)) :
    entries.addLines number (dropReturn line :: rest) = entries.addLines number (line :: rest) := by
  rcases dropReturn_cases line with h | h
  · rw [h]
  · conv_rhs =>
      rw [h, Entries.addLines, trimChars_append_blank blank_return, readLine_append_return]
    rw [Entries.addLines]

/-- Only the line feeds matter to where the lines of a list are. -/
theorem addLines_linesOfPieces (pieces : List (List Char)) :
    ∀ (entries : Entries) (number : Nat),
      entries.addLines number (linesOfPieces pieces) = entries.addLines number pieces := by
  induction pieces using linesOfPieces.induct with
  | case1 => exact fun _ _ => rfl
  | case2 last hempty =>
    -- what is left after the last feed is no line if it is empty; as a line it would be blank
    intro entries number
    obtain rfl := List.isEmpty_iff.1 hempty
    rfl
  | case3 last hne =>
    intro entries number
    rw [linesOfPieces, if_neg hne]
  | case4 piece pieces hne ih =>
    intro entries number
    rw [linesOfPieces, addLines_dropReturn]
    · simp only [Entries.addLines, ih]
    · exact hne

theorem parse_eq (content : String) : parse content =
    (Entries.addLines ∅ 1 (content.toList.splitOn '\n')).map ofEntries := by
  rw [parse, textLines, splitAtChar_eq_splitOn, addLines_linesOfPieces]

/-- A list holds what has been said on some lines. -/
structure Records (l : DependencyList) (lines : List (List Char)) : Prop where
  mem_names : ∀ a, a ∈ l.names ↔ ∃ b, Listed lines a b ∨ Listed lines b a
  mem_dependencies : ∀ a b, b ∈ l.graph.dependencies a ↔ Listed lines a b

/-- The list that comes of adding some names one after another. -/
def ofNames (named : List (String × List String)) : DependencyList :=
  named.foldl (fun l entry => l.addName entry.1 entry.2) empty

theorem ofNames_concat (named : List (String × List String)) (entry : String × List String) :
    ofNames (named ++ [entry]) = (ofNames named).addName entry.1 entry.2 :=
  List.foldl_concat _ _ _ _

theorem mem_names_ofNames {named : List (String × List String)} {a : String} :
    a ∈ (ofNames named).names ↔ ∃ entry ∈ named, a = entry.1 ∨ a ∈ entry.2 := by
  induction named using List.reverseRecOn with
  | nil => simp [ofNames, empty]
  | append_singleton named entry ih =>
    rw [ofNames_concat, addName, mem_set_insertMany, mem_set_insert, ih]
    simp only [List.mem_append, List.mem_singleton, or_and_right, exists_or, exists_eq_left]
    rw [or_comm, or_comm (a := a = entry.1), or_assoc]

theorem mem_dependencies_ofNames {named : List (String × List String)} {a b : String}
    (hdistinct : (named.map Prod.fst).Nodup) : b ∈ (ofNames named).graph.dependencies a ↔
      ∃ entry ∈ named, a = entry.1 ∧ b ∈ entry.2 := by
  induction named using List.reverseRecOn with
  | nil => simp [ofNames, empty]
  | append_singleton named entry ih =>
    rw [List.map_append, List.nodup_append] at hdistinct
    obtain ⟨hnamed, -, hnew⟩ := hdistinct
    rw [ofNames_concat, addName]
    simp only [List.mem_append, List.mem_singleton, or_and_right, exists_or, exists_eq_left,
      ← ih hnamed]
    by_cases ha : a = entry.1
    · subst ha
      have hnone : ¬ b ∈ (ofNames named).graph.dependencies entry.1 := by
        rw [ih hnamed]
        rintro ⟨earlier, hearlier, he, -⟩
        exact hnew _ (List.mem_map_of_mem hearlier) _ (by simp) he.symm
      rw [Graph.dependencies_setEdges_self, mem_set_ofList]
      simp [hnone]
    · rw [Graph.dependencies_setEdges_other _ (Ne.symm ha)]
      simp [ha]

theorem Entries.Hold.listed_iff {entries : Entries} {lines : List (List Char)}
    (h : entries.Hold lines) {a b : String} :
    Listed lines a b ↔ ∃ entry ∈ entries.toList, a = entry.1 ∧ b ∈ entry.2 := by
  rw [← h.mem_entry, Std.ExtTreeMap.getD_eq_getD_getElem?]
  constructor
  · intro hb
    cases hentry : entries[a]? with
    | none => simp [hentry] at hb
    | some dependencies =>
      rw [hentry] at hb
      exact ⟨(a, dependencies), Std.ExtTreeMap.mem_toList_iff_getElem?_eq_some.2 hentry, rfl, hb⟩
  · rintro ⟨⟨_, dependencies⟩, hentry, rfl, hb⟩
    rw [Std.ExtTreeMap.mem_toList_iff_getElem?_eq_some.1 hentry]
    exact hb

theorem Entries.Hold.exists_mem {entries : Entries} {lines : List (List Char)}
    (h : entries.Hold lines) {entry : String × List String} (hentry : entry ∈ entries.toList) :
    ∃ b, b ∈ entry.2 := by
  have hne := h.entry_ne_nil entry.1
  rw [Std.ExtTreeMap.mem_toList_iff_getElem?_eq_some.1 hentry] at hne
  exact List.exists_mem_of_ne_nil entry.2 fun hnil => hne (congrArg some hnil)

theorem Entries.Hold.records {entries : Entries} {lines : List (List Char)}
    (h : entries.Hold lines) : Records (ofEntries entries) lines := by
  have hlist : ofEntries entries = ofNames entries.toList := Std.ExtTreeMap.foldl_eq_foldl_toList
  have hdistinct : (entries.toList.map Prod.fst).Nodup := by
    rw [Std.ExtTreeMap.map_fst_toList_eq_keys]
    exact Std.ExtTreeMap.nodup_keys
  constructor
  · intro a
    rw [hlist, mem_names_ofNames]
    simp only [h.listed_iff]
    constructor
    · rintro ⟨entry, hentry, rfl | ha⟩
      · obtain ⟨b, hb⟩ := h.exists_mem hentry
        exact ⟨b, .inl ⟨entry, hentry, rfl, hb⟩⟩
      · exact ⟨entry.1, .inr ⟨entry, hentry, rfl, ha⟩⟩
    · rintro ⟨b, ⟨entry, hentry, ha, -⟩ | ⟨entry, hentry, -, ha⟩⟩
      · exact ⟨entry, hentry, .inl ha⟩
      · exact ⟨entry, hentry, .inr ha⟩
  · intro a b
    rw [hlist, mem_dependencies_ofNames hdistinct, h.listed_iff]

theorem exists_parse {content : String}
    (h : ∀ line ∈ content.toList.splitOn '\n', Readable line) :
    ∃ l, parse content = .ok l ∧ Records l (content.toList.splitOn '\n') := by
  obtain ⟨entries, hentries, hhold⟩ := Entries.Hold.empty.addLines 1 h
  exact ⟨ofEntries entries, by rw [parse_eq, hentries]; rfl, hhold.records⟩

theorem parse_error {content : String} {before after : List (List Char)} {line : List Char}
    (h : content.toList.splitOn '\n' = before ++ line :: after)
    (hbefore : ∀ earlier ∈ before, Readable earlier) (hline : ¬ Readable line) :
    ∃ fault, parse content = .error (.line (before.length + 1) fault) := by
  obtain ⟨fault, hfault⟩ : ∃ fault, Entries.addLines ∅ 1 (before ++ line :: after) =
      .error (.line (1 + before.length) fault) := addLines_error hline ∅ 1 hbefore
  exact ⟨fault, by rw [parse_eq, h, hfault, Nat.add_comm]; rfl⟩

/-- **A text is read if and only if each of its lines can be.** -/
theorem parse_iff {content : String} :
    (∃ l, parse content = .ok l) ↔ ∀ line ∈ content.toList.splitOn '\n', Readable line := by
  constructor
  · rintro ⟨l, hl⟩
    by_contra h
    obtain ⟨before, line, after, hlines, hbefore, hline⟩ := exists_first_unreadable h
    obtain ⟨fault, hfault⟩ := parse_error hlines hbefore hline
    cases hl.symm.trans hfault
  · intro h
    obtain ⟨l, hl, -⟩ := exists_parse h
    exact ⟨l, hl⟩

theorem Records.of_parse {content : String} {l : DependencyList} (h : parse content = .ok l) :
    Records l (content.toList.splitOn '\n') := by
  obtain ⟨l', hl', hrecords⟩ := exists_parse (parse_iff.1 ⟨l, h⟩)
  obtain rfl : l' = l := Except.ok.inj (hl'.symm.trans h)
  exact hrecords

/-! ## Sorting -/

theorem Records.targetDependsOn {l : DependencyList} {lines : List (List Char)}
    (h : Records l lines) :
    l.graph.TargetDependsOn (fun _ => []) l.names = Listed lines := by
  funext a b
  simp only [Graph.TargetDependsOn, h.mem_names, h.mem_dependencies, List.not_mem_nil, or_false]
  exact propext ⟨fun hab => hab.2.2, fun hab => ⟨⟨b, .inl hab⟩, ⟨a, .inr hab⟩, hab⟩⟩

theorem Records.plan_sorts {l : DependencyList} {lines : List (List Char)} (h : Records l lines) :
    (l.graph.plan (fun _ => []) l.names).Sorts l.names (Listed lines) :=
  h.targetDependsOn ▸ l.graph.plan_sorts (fun _ => []) l.names

theorem sorted_eq_ok {l : DependencyList} {order : List String} : l.sorted = .ok order ↔
    (l.graph.plan (fun _ => []) l.names).cycleMembers = [] ∧
      (l.graph.plan (fun _ => []) l.names).order = order := by
  unfold sorted
  dsimp only
  split
  · rename_i h
    rw [List.isEmpty_iff.1 h]
    simp only [Except.ok.injEq, true_and]
  · rename_i h
    exact iff_of_false (by simp) fun hc => h (List.isEmpty_iff.2 hc.1)

theorem sorted_eq_error {l : DependencyList} {failure : Failure} : l.sorted = .error failure ↔
    (l.graph.plan (fun _ => []) l.names).cycleMembers ≠ [] ∧
      .circularDependency (l.graph.plan (fun _ => []) l.names).cycleMembers = failure := by
  unfold sorted
  dsimp only
  split
  · rename_i h
    exact iff_of_false (by simp) fun hc => hc.1 (List.isEmpty_iff.1 h)
  · rename_i h
    rw [Except.error.injEq]
    exact ⟨fun he => ⟨fun hnil => h (List.isEmpty_iff.2 hnil), he⟩, And.right⟩

theorem Records.sorted_iff {l : DependencyList} {lines : List (List Char)} (h : Records l lines) :
    (∃ order, l.sorted = .ok order) ↔ ∀ a, ¬ TransGen (Listed lines) a a := by
  simp only [sorted_eq_ok, exists_and_left, exists_eq', and_true,
    List.eq_nil_iff_forall_not_mem, h.plan_sorts.mem_cycleMembers]

/-- **A sorted list holds each name once, after all that it depends on.** -/
theorem Records.of_sorted {l : DependencyList} {lines : List (List Char)} {order : List String}
    (h : Records l lines) (hsorted : l.sorted = .ok order) :
    order.Nodup ∧ (∀ a, a ∈ order ↔ ∃ b, Listed lines a b ∨ Listed lines b a) ∧
      ∀ pre a post, order = pre ++ a :: post → ∀ b, Listed lines a b → b ∈ pre := by
  obtain ⟨hnone, rfl⟩ := sorted_eq_ok.1 hsorted
  have hperm := h.plan_sorts.order_perm hnone
  refine ⟨hperm.nodup_iff.2 nodup_toList, fun a => ?_, h.plan_sorts.ready⟩
  rw [hperm.mem_iff, Std.ExtTreeSet.mem_toList, h.mem_names]

/-- **A list that is not sorted fails with the names that depend on themselves.** -/
theorem Records.of_not_sorted {l : DependencyList} {lines : List (List Char)} {failure : Failure}
    (h : Records l lines) (hfailed : l.sorted = .error failure) :
    ∃ members, failure = .circularDependency members ∧ members.Pairwise (· < ·) ∧
      ∀ a, a ∈ members ↔ TransGen (Listed lines) a a := by
  obtain ⟨-, rfl⟩ := sorted_eq_error.1 hfailed
  exact ⟨_, rfl, Plan.pairwise_make_cycleMembers.imp compare_lt_iff_lt.1,
    h.plan_sorts.mem_cycleMembers⟩

/-! ## From text to order -/

/-- **A text is sorted unless a line cannot be read or the names lie on a cycle.** A text is read if
and only if each of its lines is blank or has exactly one colon, with more than blanks on both
sides; otherwise the failure has the number of the first line of another form. What is read is
sorted if and only if no name depends on itself by what the lines say; then each name that is
mentioned is listed once, after all that it depends on. Otherwise the failure lists the names that
depend on themselves, in ascending order. The carriage return of a line feed is a blank at the end
of its line. -/
theorem sorted_unless_cyclic (content : String) :
    let lines := content.toList.splitOn '\n'
    ((∃ l, parse content = .ok l) ↔ ∀ line ∈ lines, Readable line) ∧
      (∀ before line after, lines = before ++ line :: after →
        (∀ earlier ∈ before, Readable earlier) → ¬ Readable line →
          ∃ fault, parse content = .error (.line (before.length + 1) fault)) ∧
      ∀ l, parse content = .ok l →
        ((∃ order, l.sorted = .ok order) ↔ ∀ a, ¬ TransGen (Listed lines) a a) ∧
        (∀ order, l.sorted = .ok order → order.Nodup ∧
          (∀ a, a ∈ order ↔ ∃ b, Listed lines a b ∨ Listed lines b a) ∧
          ∀ pre a post, order = pre ++ a :: post → ∀ b, Listed lines a b → b ∈ pre) ∧
        ∀ failure, l.sorted = .error failure →
          ∃ members, failure = .circularDependency members ∧ members.Pairwise (· < ·) ∧
            ∀ a, a ∈ members ↔ TransGen (Listed lines) a a := by
  refine ⟨parse_iff, fun _ _ _ hlines hbefore hline => parse_error hlines hbefore hline,
    fun l hl => ?_⟩
  have hrecords := Records.of_parse hl
  exact ⟨hrecords.sorted_iff, fun _ => hrecords.of_sorted, fun _ => hrecords.of_not_sorted⟩

theorem of_map_parse {β : Type} {content : String} {f : DependencyList → β} {result : β}
    (h : (parse content).map f = .ok result) : ∃ l, parse content = .ok l ∧ f l = result := by
  cases hl : parse content with
  | error failure => rw [hl] at h; cases h
  | ok l => rw [hl] at h; exact ⟨l, rfl, Except.ok.inj h⟩

/-- Names that depend on each other in a row, names that depend on each other in a circle with one
that leads to it, and a line without a name. -/
theorem sorted_unless_cyclic_loop :
    let row := " c : b\r\n\nb: a\n"
    let circle := "B: A\nA: B\nC: B"
    let nameless := "A: B\n \n: C\nA\n"
    let said (content : String) := Listed (content.toList.splitOn '\n')
    ((parse row).map sorted = .ok (.ok ["a", "b", "c"]) ∧
      (parse circle).map sorted = .ok (.error (.circularDependency ["A", "B"])) ∧
      (parse nameless).map sorted = .error (.line 3 .noName)) ∧
      (∀ a, ¬ TransGen (said row) a a) ∧ (∀ a, a ∈ ["A", "B"] ↔ TransGen (said circle) a a) ∧
      ¬ ∀ line ∈ nameless.toList.splitOn '\n', Readable line := by
  intro row circle nameless said
  refine (fun facts => ⟨facts, ?_, ?_, ?_⟩) ⟨by cbv, by cbv, by cbv⟩
  · obtain ⟨l, hl, hsorted⟩ := of_map_parse facts.1
    exact ((sorted_unless_cyclic row).2.2 l hl).1.1 ⟨_, hsorted⟩
  · obtain ⟨l, hl, hfailed⟩ := of_map_parse facts.2.1
    obtain ⟨_, ⟨⟩, -, hmembers⟩ := ((sorted_unless_cyclic circle).2.2 l hl).2.2 _ hfailed
    exact hmembers
  · intro h
    obtain ⟨l, hl⟩ := (sorted_unless_cyclic nameless).1.2 h
    have hfailed := facts.2.2
    rw [hl] at hfailed
    cases hfailed

/-! ## The same pairs -/

/-- Lines that say the same pairs are remembered as the same edges. The graphs may still differ: each
holds its edges in the order of the lines. -/
theorem Records.sameEdges {l l' : DependencyList} {lines lines' : List (List Char)}
    (h : Records l lines) (h' : Records l' lines')
    (hsame : ∀ a b, Listed lines a b ↔ Listed lines' a b) : l.graph.SameEdges l'.graph :=
  fun a => Std.ExtTreeSet.ext_mem fun b => by
    rw [h.mem_dependencies, h'.mem_dependencies, hsame]

theorem Records.names_eq {l l' : DependencyList} {lines lines' : List (List Char)}
    (h : Records l lines) (h' : Records l' lines')
    (hsame : ∀ a b, Listed lines a b ↔ Listed lines' a b) : l.names = l'.names :=
  Std.ExtTreeSet.ext_mem fun a => by simp only [h.mem_names, h'.mem_names, hsame]

/-- The order in which edges were made is lost when a list is sorted: the search takes its targets,
and what a target depends on, in ascending order. -/
theorem sorted_of_sameEdges {l l' : DependencyList} (hnames : l.names = l'.names)
    (hedges : l.graph.SameEdges l'.graph) : l.sorted = l'.sorted := by
  have hplan : l.graph.plan (fun _ => []) l.names = l'.graph.plan (fun _ => []) l'.names := by
    rw [hnames, hedges.plan]
  rw [sorted, sorted, hplan]

theorem listed_iff_mem {lines : List (List Char)} {a b : String} :
    Listed lines a b ↔ .ok (a, b) ∈ lines.map readLine := by
  simp only [Listed, List.mem_map, readLine_eq_ok]

/-- **How a list is sorted depends only on the pairs that its lines say.** Of two texts that can be
read and say the same pairs, whatever the order of their lines, however often a pair is repeated and
whatever blanks and blank lines there are, either both are sorted into the same list, or both fail
with the same names on a cycle. -/
theorem sorted_of_same_pairs {content content' : String} {l l' : DependencyList}
    (hl : parse content = .ok l) (hl' : parse content' = .ok l')
    (hsame : ∀ a b, Listed (content.toList.splitOn '\n') a b ↔
      Listed (content'.toList.splitOn '\n') a b) : l.sorted = l'.sorted := by
  have h := Records.of_parse hl
  have h' := Records.of_parse hl'
  exact sorted_of_sameEdges (h.names_eq h' hsame) (h.sameEdges h' hsame)

/-- Names in a row, and a circle of two names with names that lead to it; and of either the same
pairs in another order, with a pair repeated, other blanks and blank lines. The edges of the rows
are held in different orders. -/
theorem sorted_of_same_pairs_shuffled :
    let row := "c: a\nc: b\nb: a"
    let row' := "b: a\n c:b \r\n\nc: a\nb: a"
    let circle := "B: A\nC: B\nD: A\nA: B"
    let circle' := " D :A\r\nA: B\n\nC:B\nB: A\nC: B\n"
    let said (content : String) := Listed (content.toList.splitOn '\n')
    ((parse row).map (·.graph.outgoing "c") = .ok ["b", "a"] ∧
        (parse row').map (·.graph.outgoing "c") = .ok ["a", "b"] ∧
        (parse row).map sorted = .ok (.ok ["a", "b", "c"]) ∧
        (parse circle).map sorted = .ok (.error (.circularDependency ["A", "B"])) ∧
        (parse circle').map size = .ok 4) ∧
      ((∀ a b, said row a b ↔ said row' a b) ∧ ∀ a b, said circle a b ↔ said circle' a b) ∧
      (parse row').map sorted = .ok (.ok ["a", "b", "c"]) ∧
      (parse circle').map sorted = .ok (.error (.circularDependency ["A", "B"])) := by
  intro row row' circle circle' said
  refine (fun facts => ⟨facts, ?_⟩) ⟨by cbv, by cbv, by cbv, by cbv, by cbv⟩
  have hrow : ∀ a b, said row a b ↔ said row' a b := by
    intro a b
    have hread : (row.toList.splitOn '\n').map readLine =
        [.ok ("c", "a"), .ok ("c", "b"), .ok ("b", "a")] := by cbv
    have hread' : (row'.toList.splitOn '\n').map readLine = [.ok ("b", "a"), .ok ("c", "b"),
        .error .noName, .ok ("c", "a"), .ok ("b", "a")] := by cbv
    simp only [said, listed_iff_mem, hread, hread']
    grind
  have hcircle : ∀ a b, said circle a b ↔ said circle' a b := by
    intro a b
    have hread : (circle.toList.splitOn '\n').map readLine =
        [.ok ("B", "A"), .ok ("C", "B"), .ok ("D", "A"), .ok ("A", "B")] := by cbv
    have hread' : (circle'.toList.splitOn '\n').map readLine = [.ok ("D", "A"), .ok ("A", "B"),
        .error .noName, .ok ("C", "B"), .ok ("B", "A"), .ok ("C", "B"), .error .noName] := by cbv
    simp only [said, listed_iff_mem, hread, hread']
    grind
  obtain ⟨-, houtgoing, hsortedRow, hsortedCircle, hsize⟩ := facts
  obtain ⟨l, hl, hsorted⟩ := of_map_parse hsortedRow
  obtain ⟨l', hl', -⟩ := of_map_parse houtgoing
  obtain ⟨m, hm, hfailed⟩ := of_map_parse hsortedCircle
  obtain ⟨m', hm', -⟩ := of_map_parse hsize
  refine ⟨⟨hrow, hcircle⟩, ?_, ?_⟩
  · rw [hl', ← hsorted]
    exact congrArg Except.ok (sorted_of_same_pairs hl hl' hrow).symm
  · rw [hm', ← hfailed]
    exact congrArg Except.ok (sorted_of_same_pairs hm hm' hcircle).symm

end DependencyList

end Spreadsheet
