import TableGateway.Proofs.Entries
import TableGateway.Proofs.Text.Parts
import TableGateway.Settings.EnvFile

/-! # What an environment file sets

The loading reads the environment that it changes, line after line. In the end each variable depends
only on what it was and on the values that the lines of the file give to its name, in their order. A
second loading finds all of them settled. -/

namespace TableGateway

/-! ## Lines -/

/-- The lines of a text. A line ends at a line feed, at a carriage return, or at the two in this
order. -/
def Text.lines : List Char → List (List Char)
  | [] => [[]]
  | '\r' :: '\n' :: rest => [] :: lines rest
  | c :: rest =>
      if c = '\n' ∨ c = '\r' then [] :: lines rest
      else match lines rest with
        | [] => [[c]]
        | line :: more => (c :: line) :: more

/-- Unified line ends cut a text into its lines. -/
theorem Text.split_unifyLineEnds (cs : List Char) :
    split '\n' (ofChars (unifyLineEnds cs)) = (lines cs).map ofChars := by
  fun_induction unifyLineEnds cs with
  | case1 => rfl
  | case2 rest ih => simpa [ofChars, split, lines] using ih
  | case3 c rest hpair ih =>
      rw [lines.eq_3 c rest hpair]
      by_cases hend : c = '\n' ∨ c = '\r'
      · have hc : (if c = '\r' then '\n' else c) = '\n' := by rcases hend with rfl | rfl <;> rfl
        rw [if_pos hend, hc]
        simpa [ofChars, split] using ih
      · -- No line ends here, so the character goes in front of the first line of the rest.
        rw [if_neg hend]
        rw [not_or] at hend
        have hne : CodePoint.char c ≠ .char '\n' := by simpa using hend.1
        rw [if_neg hend.2]
        cases hl : lines rest with
        | nil => simp [hl, split_ne_nil] at ih
        | cons line more =>
            rw [hl, List.map_cons] at ih
            exact split_cons_of_ne hne ih

theorem Text.mem_unifyLineEnds {c : Char} {cs : List Char} (h : c ∈ unifyLineEnds cs) :
    c = '\n' ∨ c ∈ cs := by
  fun_induction unifyLineEnds cs with
  | case1 => cases h
  | case2 rest ih =>
      rcases List.mem_cons.mp h with rfl | h
      · exact Or.inl rfl
      · exact (ih h).imp_right fun hm => by simp [hm]
  | case3 first rest hpair ih =>
      rcases List.mem_cons.mp h with rfl | h
      · split <;> simp
      · exact (ih h).imp_right (List.mem_cons_of_mem first)

namespace EnvFile

/-! ## One variable -/

/-- What becomes of a variable that is given values in turn: a value that is not empty stays, and
otherwise the first value that is not empty counts. Empty values alone leave the variable empty. -/
def settled : Option Text → List Text → Option Text
  | some (c :: rest), _ => some (c :: rest)
  | old, values => match values.find? (· ≠ []) with
    | some value => some value
    | none => if values = [] then old else some []

@[simp] theorem settled_nil (old : Option Text) : settled old [] = old := by
  rcases old with _ | _ | ⟨c, rest⟩ <;> rfl

/-- Values can be given one after the other. -/
theorem settled_cons (old : Option Text) (value : Text) (rest : List Text) :
    settled old (value :: rest) = settled (settled old [value]) rest := by
  rcases old with _ | _ | ⟨c, cs⟩ <;> rcases value with _ | ⟨d, ds⟩ <;> simp [settled]

/-- A variable that is given a value is set, and is not empty unless the value is. -/
theorem settled_of_mem (old : Option Text) {value : Text} {values : List Text}
    (h : value ∈ values) : ∃ text, settled old values = some text ∧ (text = [] → value = []) := by
  unfold settled
  split
  · exact ⟨_, rfl, nofun⟩
  · cases hf : values.find? (· ≠ []) with
    | some text =>
        have ht : text ≠ [] := by simpa using List.find?_some hf
        exact ⟨text, rfl, fun he => absurd he ht⟩
    | none =>
        have hvalue : value = [] := by simpa using List.find?_eq_none.mp hf value h
        exact ⟨[], by simp [List.ne_nil_of_mem h], fun _ => hvalue⟩

/-! ## Assignments -/

/-- Whether an assignment can be carried out. -/
structure Legal (assignment : Text × Text) : Prop where
  name : assignment.1 ≠ []
  equals : (.char '=') ∉ assignment.1
  nullName : (.char '\x00') ∉ assignment.1
  nullValue : (.char '\x00') ∉ assignment.2

/-- The environment after an assignment. -/
def assigned (environment : Environment) (assignment : Text × Text) : Environment :=
  match Entries.get? environment assignment.1 with
  | some (_ :: _) => environment
  | _ => Entries.put assignment.1 assignment.2 environment

/-- The values that assignments give to a name, in their order. -/
def valuesIn (name : Text) (assignments : List (Text × Text)) : List Text :=
  assignments.filterMap fun assignment =>
    if assignment.1 = name then some assignment.2 else none

theorem apply_of_legal (environment : Environment) {assignment : Text × Text}
    (h : Legal assignment) :
    apply environment assignment = .ok (assigned environment assignment) := by
  have hset : environment.set assignment.1 assignment.2 =
      .ok (Entries.put assignment.1 assignment.2 environment) := by
    simp [Environment.set, h.name, h.equals, h.nullName, h.nullValue]
  have hempty : ("" : Text) = [] := rfl
  unfold apply assigned Environment.given?
  rcases Entries.get? environment assignment.1 with _ | _ | ⟨c, rest⟩ <;>
    simp [Option.filter, hset, hempty]

theorem applyAll_of_legal (environment : Environment) {assignments : List (Text × Text)}
    (h : ∀ assignment ∈ assignments, Legal assignment) :
    applyAll environment assignments = (assignments.foldl assigned environment, none) := by
  induction assignments generalizing environment with
  | nil => rfl
  | cons assignment rest ih =>
      have hfirst := apply_of_legal environment (h assignment List.mem_cons_self)
      have hrest := ih (assigned environment assignment) fun other hm =>
        h other (List.mem_cons_of_mem assignment hm)
      simp only [applyAll, hfirst, hrest, List.foldl_cons]

/-- One assignment settles its variable and leaves all others. -/
theorem get?_assigned (environment : Environment) (assignment : Text × Text) (name : Text) :
    Entries.get? (assigned environment assignment) name =
      settled (Entries.get? environment name) (valuesIn name [assignment]) := by
  by_cases hn : assignment.1 = name
  · have hvalues : valuesIn name [assignment] = [assignment.2] := by simp [valuesIn, hn]
    rw [hvalues, assigned, hn]
    rcases hold : Entries.get? environment name with _ | _ | ⟨c, rest⟩
    · cases hv : assignment.2 <;> simp [settled]
    · cases hv : assignment.2 <;> simp [settled]
    · exact hold
  · have hvalues : valuesIn name [assignment] = [] := by simp [valuesIn, hn]
    rw [hvalues, settled_nil, assigned]
    split
    · rfl
    · exact Entries.get?_put_of_ne (Ne.symm hn) _ _

/-- Assignments settle every variable with the values that they give to it. -/
theorem get?_foldl_assigned (environment : Environment) (assignments : List (Text × Text))
    (name : Text) :
    Entries.get? (assignments.foldl assigned environment) name =
      settled (Entries.get? environment name) (valuesIn name assignments) := by
  induction assignments generalizing environment with
  | nil => simp [valuesIn]
  | cons assignment rest ih =>
      rw [List.foldl_cons, ih, get?_assigned]
      -- The first value settles what the other values then start from.
      by_cases hn : assignment.1 = name
      · simp only [valuesIn, List.filterMap_cons, if_pos hn, List.filterMap_nil]
        exact (settled_cons _ _ _).symm
      · simp [valuesIn, hn]

theorem valuesIn_nil_of_legal {assignments : List (Text × Text)}
    (h : ∀ assignment ∈ assignments, Legal assignment) : valuesIn [] assignments = [] :=
  List.filterMap_eq_nil_iff.mpr fun assignment hm => if_neg (h assignment hm).name

/-- An assignment to a variable that is settled changes nothing. -/
theorem assigned_of_settled {environment : Environment} {assignment : Text × Text} {text : Text}
    (h : Entries.get? environment assignment.1 = some text)
    (hempty : text = [] → assignment.2 = []) : assigned environment assignment = environment := by
  unfold assigned
  rw [h]
  cases text with
  | cons c rest => rfl
  | nil =>
      rw [← hempty rfl] at h
      exact Entries.put_of_get? h

theorem foldl_assigned_of_settled {environment : Environment} {assignments : List (Text × Text)}
    (h : ∀ assignment ∈ assignments, assigned environment assignment = environment) :
    assignments.foldl assigned environment = environment := by
  induction assignments with
  | nil => rfl
  | cons assignment rest ih =>
      rw [List.foldl_cons, h assignment List.mem_cons_self]
      exact ih fun other hm => h other (List.mem_cons_of_mem assignment hm)

/-- Assignments that were carried out change nothing when they are carried out again. -/
theorem foldl_assigned_again (environment : Environment) (assignments : List (Text × Text)) :
    assignments.foldl assigned (assignments.foldl assigned environment) =
      assignments.foldl assigned environment := by
  apply foldl_assigned_of_settled
  intro assignment hm
  have hvalue : assignment.2 ∈ valuesIn assignment.1 assignments :=
    List.mem_filterMap.mpr ⟨assignment, hm, if_pos rfl⟩
  obtain ⟨text, htext, hempty⟩ :=
    settled_of_mem (Entries.get? environment assignment.1) hvalue
  exact assigned_of_settled ((get?_foldl_assigned _ _ _).trans htext) hempty

/-! ## The lines of a file -/

/-- The value that a line gives to a name: without surrounding white space, the line is no comment
and has an equals sign with the name in front of the first one. -/
def valueFor? (name line : Text) : Option Text :=
  let text := Text.strip line
  if text ≠ [] ∧ text.head? ≠ some (.char '#') ∧ (.char '=') ∈ text ∧
      Text.strip (Text.before '=' text) = name then
    some (Text.strip (Text.fromFirst '=' text).tail)
  else none

/-- The values that a file gives to a name, in the order of its lines. -/
def valuesOf (name : Text) (content : String) : List Text :=
  (Text.lines content.toList).filterMap fun line => valueFor? name (.ofChars line)

/-- The lines that assign, with the parts that they assign. -/
theorem assignment?_eq_some_iff {line name value : Text} :
    assignment? line = some (name, value) ↔
      (Text.strip line).head? ≠ some (.char '#') ∧ (.char '=') ∈ Text.strip line ∧
        Text.strip (Text.before '=' (Text.strip line)) = name ∧ name ≠ [] ∧
        Text.strip (Text.fromFirst '=' (Text.strip line)).tail = value := by
  unfold assignment?
  cases hcut : Text.fromFirst '=' (Text.strip line) with
  | nil =>
      have hmem := Text.fromFirst_eq_nil_iff.mp hcut
      simp [hcut, hmem]
  | cons c rest =>
      have hmem : (.char '=') ∈ Text.strip line := by
        by_contra hno
        rw [Text.fromFirst_eq_nil_iff.mpr hno] at hcut
        cases hcut
      by_cases hcomment : (Text.strip line).head? = some (.char '#')
      · simp [hcomment]
      · by_cases hkey : Text.strip (Text.before '=' (Text.strip line)) = name
        · simp [hcut, hmem, hcomment, hkey]
        · simp [hcut, hcomment, hkey]

/-- A line gives a value to a name exactly when it is an assignment to this name. -/
theorem valueFor?_eq_some_iff {name line value : Text} (hname : name ≠ []) :
    valueFor? name line = some value ↔ assignment? line = some (name, value) := by
  rw [assignment?_eq_some_iff, valueFor?]
  simp only [Option.ite_none_right_eq_some, Option.some.injEq]
  constructor
  · rintro ⟨⟨-, hcomment, hmem, hkey⟩, hvalue⟩
    exact ⟨hcomment, hmem, hkey, hname, hvalue⟩
  · rintro ⟨hcomment, hmem, hkey, -, hvalue⟩
    exact ⟨⟨List.ne_nil_of_mem hmem, hcomment, hmem, hkey⟩, hvalue⟩

/-- What a line without null characters assigns can be carried out. -/
theorem legal_of_assignment? {line : Text} {assignment : Text × Text}
    (h : assignment? line = some assignment) (hnull : (.char '\x00') ∉ line) :
    Legal assignment := by
  obtain ⟨-, -, hkey, hname, hvalue⟩ := assignment?_eq_some_iff.mp h
  have hstrip (text : Text) : Text.strip text ⊆ text := Text.trim_subset _ text
  have hbefore : Text.before '=' (Text.strip line) ⊆ Text.strip line :=
    (List.takeWhile_prefix _).subset
  have hafter : (Text.fromFirst '=' (Text.strip line)).tail ⊆ Text.strip line :=
    ((List.tail_suffix _).trans (List.dropWhile_suffix _)).subset
  refine ⟨hname, ?_, ?_, ?_⟩
  · rw [← hkey]
    exact fun hc => Text.not_mem_before _ _ (hstrip _ hc)
  · rw [← hkey]
    exact fun hc => hnull (hstrip _ (hbefore (hstrip _ hc)))
  · rw [← hvalue]
    exact fun hc => hnull (hstrip _ (hafter (hstrip _ hc)))

/-- The text that is read has the lines of the file. -/
theorem split_readLines (content : String) :
    Text.split '\n' (String.ofList (Text.unifyLineEnds content.toList)) =
      (Text.lines content.toList).map .ofChars := by
  unfold Text.ofString
  rw [String.toList_ofList, Text.split_unifyLineEnds]

/-- The assignments of a file give a name the values that its lines give to it. -/
theorem valuesIn_assignments {name : Text} (hname : name ≠ []) (content : String) :
    valuesIn name (assignments (String.ofList (Text.unifyLineEnds content.toList))) =
      valuesOf name content := by
  have hline : ∀ line, ((assignment? line).bind fun assignment =>
      if assignment.1 = name then some assignment.2 else none) = valueFor? name line := by
    intro line
    ext value
    rw [valueFor?_eq_some_iff hname, Option.bind_eq_some_iff]
    constructor
    · rintro ⟨⟨key, text⟩, ha, hv⟩
      simp only [Option.ite_none_right_eq_some, Option.some.injEq] at hv
      obtain ⟨rfl, rfl⟩ := hv
      exact ha
    · intro ha
      exact ⟨(name, value), ha, if_pos rfl⟩
  unfold valuesIn assignments valuesOf
  rw [split_readLines, List.filterMap_filterMap, List.filterMap_map]
  exact List.filterMap_congr fun line _ => hline (.ofChars line)

/-- What a file without null characters assigns can be carried out. -/
theorem legal_of_mem_assignments {content : String} (hnull : '\x00' ∉ content.toList)
    {assignment : Text × Text}
    (h : assignment ∈ assignments (String.ofList (Text.unifyLineEnds content.toList))) :
    Legal assignment := by
  obtain ⟨line, hline, ha⟩ := List.mem_filterMap.mp h
  apply legal_of_assignment? ha
  intro hc
  have hm := Text.mem_of_mem_split hline hc
  obtain ⟨d, hd, hde⟩ := List.mem_map.mp hm
  obtain rfl := CodePoint.char.inj hde
  rw [String.toList_ofList] at hd
  exact (Text.mem_unifyLineEnds hd).elim nofun hnull

/-! ## Loading -/

/-- Loading the file at a path carries out its assignments. -/
theorem load_file {tree : FileTree} {path : FilePath} {content : String}
    (hfile : tree.place path = .ok (.file content)) (hnull : '\x00' ∉ content.toList)
    (environment : Environment) :
    load tree environment path =
      ((assignments (String.ofList (Text.unifyLineEnds content.toList))).foldl assigned environment,
        none) := by
  have hexists : tree.pathExists path = .ok true := by simp [FileTree.pathExists, hfile]
  have hread : tree.readText path = .ok (String.ofList (Text.unifyLineEnds content.toList)) := by
    unfold FileTree.readText
    rw [hfile]
    rfl
  have happly := applyAll_of_legal environment fun _ => legal_of_mem_assignments hnull
  simp only [load, hexists, hread, happly, Option.map_none]

/-- Loading a file without null characters gives every variable the value that its old value and the
values of its lines settle, sets none with an empty name, and loading the file again changes
nothing. -/
theorem load_settles (tree : FileTree) (path : FilePath) (content : String)
    (environment : Environment) (hfile : tree.place path = .ok (.file content))
    (hnull : '\x00' ∉ content.toList) :
    ∃ loaded, load tree environment path = (loaded, none) ∧
      (∀ name, Entries.get? loaded name =
        if name = [] then Entries.get? environment name
        else settled (Entries.get? environment name) (valuesOf name content)) ∧
      load tree loaded path = (loaded, none) := by
  refine ⟨_, load_file hfile hnull environment, ?_, ?_⟩
  · intro name
    rw [get?_foldl_assigned]
    split
    · next hname =>
        rw [hname, valuesIn_nil_of_legal fun _ => legal_of_mem_assignments hnull, settled_nil]
    · next hname => rw [valuesIn_assignments hname]
  · rw [load_file hfile hnull, foldl_assigned_again]

/-- A name that is given an empty value first and then two others takes the first of these. A
variable that was set keeps its value, and one that was empty takes the new one. -/
theorem load_settles_repeatedNames :
    ∃ loaded,
      load [([".env"], "#T\r\nT=\rT = users=1 \nT=orders\nSTAGE=prod\nREGION=eu\nKEY=")]
        [("STAGE", "dev"), ("REGION", "")] ⟨"", [".env"]⟩ = (loaded, none) ∧
      Entries.get? loaded "T" = some "users=1" ∧ Entries.get? loaded "STAGE" = some "dev" ∧
      Entries.get? loaded "REGION" = some "eu" ∧ Entries.get? loaded "KEY" = some "" ∧
      Entries.get? loaded "#T" = none := by
  obtain ⟨loaded, hload, hvalues, -⟩ := load_settles
    [([".env"], "#T\r\nT=\rT = users=1 \nT=orders\nSTAGE=prod\nREGION=eu\nKEY=")]
    ⟨"", [".env"]⟩ _ [("STAGE", "dev"), ("REGION", "")] rfl (by decide)
  exact ⟨loaded, hload, (hvalues _).trans (by decide), (hvalues _).trans (by decide),
    (hvalues _).trans (by decide), (hvalues _).trans (by decide), (hvalues _).trans (by decide)⟩

end EnvFile

end TableGateway
