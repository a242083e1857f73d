import OneDef.Command.Options
import Mathlib.Data.List.Induction
import Mathlib.Data.List.Nodup

/-!
# Command lines in every order and spelling

The words of a command line come in groups: the source path, the output path with its option, the stage with
its option.  An option has several spellings, and its value is attached or a word of its own.  In whatever
order and spelling the groups come, the options read are the same, and a group that comes twice is refused.

A value that is a word of its own is judged one word late, so the state of the reader depends on the spelling.
What carries the induction is the state with the waiting value judged: it holds the values of the groups so
far, and nothing else.
-/

namespace OneDef

theorem Stage.ofName?_name (stage : Stage) : ofName? stage.name = some stage := by
  cases stage <;> rfl

namespace Request

inductive OutputSpelling where
  /-- `-o path` -/
  | letter
  /-- `-opath` -/
  | letterJoined
  /-- `-o=path` -/
  | letterEquals
  /-- `--output path` -/
  | name
  /-- `--output=path` -/
  | nameEquals
  deriving DecidableEq

inductive StageSpelling where
  /-- `--emit name` -/
  | name
  /-- `--emit=name` -/
  | nameEquals
  deriving DecidableEq

/-- A value on a command line, with the spelling of the option that it belongs to. -/
inductive Group where
  | source (path : String)
  | output (spelling : OutputSpelling) (path : String)
  | stage (spelling : StageSpelling) (chosen : Stage)
  deriving DecidableEq

namespace Group

def words : Group → List String
  | source path => [path]
  | output .letter path => ["-o", path]
  | output .letterJoined path => ["-o" ++ path]
  | output .letterEquals path => ["-o=" ++ path]
  | output .name path => ["--output", path]
  | output .nameEquals path => ["--output=" ++ path]
  | stage .name chosen => ["--emit", chosen.name]
  | stage .nameEquals chosen => ["--emit=" ++ chosen.name]

def slot : Group → Slot
  | source _ => .source
  | output _ _ => .output
  | stage _ _ => .stage

def value : Group → String
  | source path => path
  | output _ path => path
  | stage _ chosen => chosen.name

/-- Paths are not empty and do not look like an option; an output path does not begin with the sign that may
stand between the option and its value. -/
def Valid : Group → Prop
  | source path => path ≠ "" ∧ path.toList.head? ≠ some '-'
  | output _ path => path ≠ "" ∧ path.toList.head? ≠ some '-' ∧ path.toList.head? ≠ some '='
  | stage _ _ => True

instance : (group : Group) → Decidable group.Valid
  | source _ => inferInstanceAs (Decidable (_ ∧ _))
  | output _ _ => inferInstanceAs (Decidable (_ ∧ _ ∧ _))
  | stage _ _ => inferInstanceAs (Decidable True)

def source? : Group → Option String
  | source path => some path
  | _ => none

def output? : Group → Option String
  | output _ path => some path
  | _ => none

def stage? : Group → Option Stage
  | stage _ chosen => some chosen
  | _ => none

/-- How the words of a group are understood: as an operand, as an option with its value behind it, or as an
option with its value attached. -/
inductive Understood (group : Group) : Prop where
  | operand (hwords : group.words = [group.value]) (hslot : group.slot = .source)
      (hvalue : Word.ofString group.value = .plain group.value)
  | apart {name : String} (hwords : group.words = [name, group.value])
      (hname : Word.ofString name = .option group.slot none)
      (hvalue : Word.ofString group.value = .plain group.value) (hslot : group.slot ≠ .source)
  | attached {text : String} (hwords : group.words = [text])
      (htext : Word.ofString text = .option group.slot (some group.value)) (hslot : group.slot ≠ .source)

end Group

section Words

variable {path : String}

theorem Word.ofString_path (h : path.toList.head? ≠ some '-') : Word.ofString path = .plain path := by
  unfold Word.ofString
  split
  · next hpath => simp [hpath] at h
  · next hpath => simp [hpath] at h
  · next hpath => simp [hpath] at h
  · rfl

theorem Word.attachedShort_path (hne : path ≠ "") (h : path.toList.head? ≠ some '=') :
    Word.attachedShort path.toList = some path := by
  unfold Word.attachedShort
  split
  · next hpath => exact absurd (String.toList_eq_nil_iff.1 hpath) hne
  · next hpath => simp [hpath] at h
  · rw [String.ofList_toList]

theorem Word.ofString_stage (stage : Stage) : Word.ofString stage.name = .plain stage.name := by
  cases stage <;> rfl

theorem Group.understood {group : Group} (h : group.Valid) : group.Understood := by
  cases group with
  | source path => exact .operand rfl rfl (Word.ofString_path h.2)
  | stage spelling chosen =>
    cases spelling with
    | name => exact .apart rfl rfl (Word.ofString_stage chosen) nofun
    | nameEquals =>
      refine .attached rfl ?_ nofun
      cases chosen <;> rfl
  | output spelling path =>
    cases spelling with
    | letter | name => exact .apart rfl rfl (Word.ofString_path h.2.1) nofun
    | letterJoined =>
      refine .attached rfl ?_ nofun
      simp [Word.ofString, Word.ofShort, Word.attachedShort_path h.1 h.2.2, slot, value]
    | letterEquals =>
      refine .attached rfl ?_ nofun
      simp [Word.ofString, Word.ofShort, Word.attachedShort, slot, value]
    | nameEquals =>
      refine .attached rfl ?_ nofun
      simp [Word.ofString, Word.ofLong, Word.attachedLong, slot, value]

end Words

/-- Whether the value of a slot has been judged. -/
def Given.Has (given : Given) : Slot → Prop
  | .source => given.source.isSome
  | .output => given.output.isSome
  | .stage => given.stage.isSome

/-- The values of groups, of which the first one counts for each slot. -/
def Group.values (groups : List Group) : Given :=
  ⟨groups.findSome? source?, groups.findSome? output?, groups.findSome? stage?⟩

section Judging

variable {given settled : Given} {pending : Option Pending} {slot : Slot} {group : Group}
  {groups : List Group} {value : String}

theorem Group.has_values_iff : (Group.values groups).Has slot ↔ slot ∈ groups.map Group.slot := by
  induction groups with
  | nil => cases slot <;> simp [values, Given.Has]
  | cons group groups ih =>
    rw [List.map_cons, List.mem_cons, ← ih]
    cases group <;> cases slot <;>
      simp [values, Given.Has, Group.slot, source?, output?, stage?, List.findSome?_cons]

theorem Given.put_of_has (hslot : slot ≠ .source) (h : given.Has slot) :
    given.put slot value = .error .argumentConflict := by
  cases slot with
  | source => exact absurd rfl hslot
  | output => exact if_pos h
  | stage => exact if_pos h

/-- A value for a slot that is free is the value of one more group. -/
theorem Group.put_values (hvalid : group.Valid) (hfree : group.slot ∉ groups.map Group.slot) :
    (Group.values groups).put group.slot group.value = .ok (Group.values (groups ++ [group])) := by
  rw [← has_values_iff] at hfree
  cases group with
  | source path =>
    have hnone : groups.findSome? source? = none := Option.not_isSome_iff_eq_none.1 hfree
    simp [slot, value, Given.put, values, hnone, hvalid.1, source?, output?, stage?]
  | output spelling path =>
    have hnone : groups.findSome? output? = none := Option.not_isSome_iff_eq_none.1 hfree
    simp [slot, value, Given.put, values, hnone, hvalid.1, source?, output?, stage?]
  | stage spelling chosen =>
    have hnone : groups.findSome? stage? = none := Option.not_isSome_iff_eq_none.1 hfree
    simp [slot, value, Given.put, values, hnone, Stage.ofName?_name, source?, output?, stage?]

theorem Given.source_of_put (h : given.put slot value = .ok settled) :
    settled.source = if slot = .source then some value else given.source := by
  cases slot with
  | source =>
    simp only [put] at h
    split_ifs at h
    cases h
    rfl
  | output =>
    simp only [put] at h
    split_ifs at h
    cases h
    rfl
  | stage =>
    simp only [put] at h
    split_ifs at h
    cases hstage : Stage.ofName? value with
    | none => simp [hstage] at h
    | some chosen =>
      rw [hstage] at h
      cases h
      rfl

/-- The operand has come exactly if it is there when the waiting value is judged. -/
theorem Given.hasOperand_of_settle (h : given.settle pending = .ok settled) :
    given.hasOperand pending = settled.source.isSome := by
  cases pending with
  | none =>
    obtain rfl : given = settled := Except.ok.inj h
    rfl
  | some pending =>
    obtain ⟨slot, value⟩ := pending
    cases value with
    | none => cases h
    | some value =>
      rw [source_of_put h]
      cases slot <;> rfl

end Judging

section Steps

variable {given settled : Given} {pending : Option Pending} {slot : Slot} {text value : String}
  {words : List String}

theorem ofWords_end : ofWords given pending [] = given.settle pending >>= fun settled ↦ .ok settled.request := by
  rw [ofWords]
  rfl

theorem ofWords_apart {name : String} (hname : Word.ofString name = .option slot none)
    (htext : Word.ofString text = .plain text) :
    ofWords given pending (name :: text :: words) =
      given.settle pending >>= fun settled ↦ ofWords settled (some ⟨slot, some text⟩) words := by
  rw [ofWords, hname]
  cases given.settle pending with
  | error error => rfl
  | ok settled =>
    change ofWords settled _ (text :: words) = ofWords settled _ words
    rw [ofWords, htext]

theorem ofWords_attached (htext : Word.ofString text = .option slot (some value)) :
    ofWords given pending (text :: words) =
      given.settle pending >>= fun settled ↦ settled.put slot value >>= fun given ↦ ofWords given none words := by
  rw [ofWords, htext]

theorem ofWords_operand (htext : Word.ofString text = .plain text)
    (hpending : ∀ slot, pending ≠ some ⟨slot, none⟩) :
    ofWords given pending (text :: words) =
      operand given pending >>= fun settled ↦ ofWords settled (some ⟨.source, some text⟩) words := by
  rw [ofWords, htext]
  dsimp only
  split
  · next slot => exact absurd rfl (hpending slot)
  · rfl

/-- A value that can be judged is complete, so a plain word behind it is an operand. -/
theorem ofWords_operand_of_settle (htext : Word.ofString text = .plain text)
    (h : given.settle pending = .ok settled) :
    ofWords given pending (text :: words) =
      if settled.source.isSome then .error .unknownArgument
      else ofWords settled (some ⟨.source, some text⟩) words := by
  have hpending (slot : Slot) : pending ≠ some ⟨slot, none⟩ := by
    rintro rfl
    cases h
  rw [ofWords_operand htext hpending, operand, Given.hasOperand_of_settle h, h]
  split <;> rfl

end Steps

section Groups

variable {given settled : Given} {pending : Option Pending} {slot : Slot} {value : String} {group : Group}
  {groups front rest : List Group}

/-- One group more, in a slot that is free. -/
theorem exists_state_of_group (h : given.settle pending = .ok (Group.values groups))
    (hvalid : group.Valid) (hfree : group.slot ∉ groups.map Group.slot) :
    ∃ given' pending', given'.settle pending' = .ok (Group.values (groups ++ [group])) ∧
      ∀ words, ofWords given pending (group.words ++ words) = ofWords given' pending' words := by
  have hput := Group.put_values hvalid hfree
  cases Group.understood hvalid with
  | operand hwords hslot hvalue =>
    rw [hslot] at hput hfree
    refine ⟨Group.values groups, some ⟨.source, some group.value⟩, hput, fun words ↦ ?_⟩
    rw [hwords, List.singleton_append, ofWords_operand_of_settle hvalue h]
    exact if_neg (Group.has_values_iff.not.2 hfree)
  | apart hwords hname hvalue _ =>
    refine ⟨Group.values groups, some ⟨group.slot, some group.value⟩, hput, fun words ↦ ?_⟩
    rw [hwords, List.cons_append, List.singleton_append, ofWords_apart hname hvalue, h]
    rfl
  | attached hwords htext _ =>
    refine ⟨Group.values (groups ++ [group]), none, rfl, fun words ↦ ?_⟩
    rw [hwords, List.singleton_append, ofWords_attached htext, h]
    change Given.put _ _ _ >>= _ = _
    rw [hput]
    rfl

/-- Behind groups for different slots their values are known. -/
theorem exists_state_of_groups (hvalid : ∀ group ∈ groups, group.Valid)
    (hnodup : (groups.map Group.slot).Nodup) :
    ∃ given pending, given.settle pending = .ok (Group.values groups) ∧
      ∀ words, ofArguments (groups.flatMap Group.words ++ words) = ofWords given pending words := by
  induction groups using List.reverseRecOn with
  | nil => exact ⟨.nothing, none, rfl, fun words ↦ rfl⟩
  | append_singleton groups group ih =>
    rw [List.forall_mem_append, List.forall_mem_singleton] at hvalid
    rw [List.map_append, List.map_singleton, ← List.concat_eq_append, List.nodup_concat] at hnodup
    obtain ⟨given, pending, hsettle, hread⟩ := ih hvalid.1 hnodup.2
    obtain ⟨given', pending', hsettle', hread'⟩ := exists_state_of_group hsettle hvalid.2 hnodup.1
    refine ⟨given', pending', hsettle', fun words ↦ ?_⟩
    rw [List.flatMap_append, List.flatMap_singleton, List.append_assoc, hread, hread']

/-- A waiting value for a slot that is taken is refused by whatever follows, if not by a second operand. -/
theorem ofWords_of_conflict (hslot : slot ≠ .source) (htaken : settled.Has slot)
    (hvalid : ∀ group ∈ rest, group.Valid) (hsource : .source ∈ rest.map Group.slot → ¬settled.Has .source) :
    ofWords settled (some ⟨slot, some value⟩) (rest.flatMap Group.words) = .error .argumentConflict := by
  have hsettle : settled.settle (some ⟨slot, some value⟩) = .error .argumentConflict :=
    Given.put_of_has hslot htaken
  cases rest with
  | nil =>
    rw [List.flatMap_nil, ofWords_end, hsettle]
    rfl
  | cons group rest =>
    rw [List.forall_mem_cons] at hvalid
    rw [List.flatMap_cons]
    cases Group.understood hvalid.1 with
    | operand hwords hgroup hvalue =>
      have hnone : ¬settled.Has .source := hsource (by simp [hgroup])
      have hoperand : ¬settled.hasOperand (some ⟨slot, some value⟩) := by
        cases slot with
        | source => exact absurd rfl hslot
        | output | stage => exact hnone
      have hpending (other : Slot) : some (Pending.mk slot (some value)) ≠ some ⟨other, none⟩ := nofun
      rw [hwords, List.singleton_append, ofWords_operand hvalue hpending, operand, if_neg hoperand, hsettle]
      rfl
    | apart hwords hname hvalue _ =>
      rw [hwords, List.cons_append, List.singleton_append, ofWords_apart hname hvalue, hsettle]
      rfl
    | attached hwords htext _ =>
      rw [hwords, List.singleton_append, ofWords_attached htext, hsettle]
      rfl

/-- A group for a slot that is taken is refused. -/
theorem ofWords_of_taken (h : given.settle pending = .ok settled) (hvalid : group.Valid)
    (htaken : settled.Has group.slot) (hrest : ∀ group ∈ rest, group.Valid)
    (hsource : .source ∈ rest.map Group.slot → ¬settled.Has .source) :
    ofWords given pending (group.words ++ rest.flatMap Group.words) =
      .error (if group.slot = .source then .unknownArgument else .argumentConflict) := by
  cases Group.understood hvalid with
  | operand hwords hslot hvalue =>
    rw [hslot] at htaken
    rw [hwords, List.singleton_append, ofWords_operand_of_settle hvalue h, if_pos hslot]
    exact if_pos htaken
  | apart hwords hname hvalue hslot =>
    rw [hwords, List.cons_append, List.singleton_append, ofWords_apart hname hvalue, h, if_neg hslot]
    exact ofWords_of_conflict hslot htaken hrest hsource
  | attached hwords htext hslot =>
    rw [hwords, List.singleton_append, ofWords_attached htext, h, if_neg hslot]
    change Given.put _ _ _ >>= _ = _
    rw [Given.put_of_has hslot htaken]
    rfl

/-- The first group whose slot is taken decides. -/
theorem ofArguments_of_taken (hvalid : ∀ other ∈ front ++ group :: rest, other.Valid)
    (hnodup : (front.map Group.slot).Nodup) (htaken : group.slot ∈ front.map Group.slot)
    (hsource : .source ∈ rest.map Group.slot → .source ∉ front.map Group.slot) :
    ofArguments ((front ++ group :: rest).flatMap Group.words) =
      .error (if group.slot = .source then .unknownArgument else .argumentConflict) := by
  rw [List.forall_mem_append, List.forall_mem_cons] at hvalid
  obtain ⟨given, pending, hsettle, hread⟩ := exists_state_of_groups hvalid.1 hnodup
  rw [List.flatMap_append, List.flatMap_cons, hread]
  apply ofWords_of_taken hsettle hvalid.2.1 (Group.has_values_iff.2 htaken) hvalid.2.2
  intro hrest
  exact Group.has_values_iff.not.2 (hsource hrest)

/-- One group more for a slot that is taken: behind the group that is there already it is refused itself, and
in front of it the other one is. -/
theorem ofArguments_of_repeated {before after : List Group} {extra : Group}
    (hvalid : ∀ group ∈ before ++ after, group.Valid) (hextra : extra.Valid)
    (hnodup : ((before ++ after).map Group.slot).Nodup)
    (hslot : extra.slot ∈ (before ++ after).map Group.slot) :
    ofArguments ((before ++ extra :: after).flatMap Group.words) =
      .error (if extra.slot = .source then .unknownArgument else .argumentConflict) := by
  rw [List.forall_mem_append] at hvalid
  rw [List.map_append] at hnodup
  rw [List.map_append, List.mem_append] at hslot
  rcases hslot with hslot | hslot
  · apply ofArguments_of_taken _ hnodup.of_append_left hslot
    · intro hafter hbefore
      exact hnodup.disjoint hbefore hafter
    · rw [List.forall_mem_append, List.forall_mem_cons]
      exact ⟨hvalid.1, hextra, hvalid.2⟩
  · obtain ⟨group, hgroup, hsame⟩ := List.mem_map.1 hslot
    obtain ⟨middle, rest, rfl⟩ := List.append_of_mem hgroup
    rw [List.forall_mem_append, List.forall_mem_cons] at hvalid
    have hfront : (before ++ extra :: middle).map Group.slot =
        before.map Group.slot ++ extra.slot :: middle.map Group.slot := by
      rw [List.map_append, List.map_cons]
    rw [List.map_append, List.map_cons, hsame, ← List.append_assoc, List.nodup_middle,
      ← List.cons_append] at hnodup
    rw [← List.cons_append, ← List.append_assoc, ← hsame]
    apply ofArguments_of_taken
    · rw [List.forall_mem_append, List.forall_mem_append, List.forall_mem_cons, List.forall_mem_cons]
      exact ⟨⟨hvalid.1, hextra, hvalid.2.1⟩, hvalid.2.2⟩
    · rw [hfront, List.nodup_middle]
      exact hnodup.of_append_left
    · simp [hsame]
    · intro hrest hsource
      rw [hfront, List.perm_middle.mem_iff] at hsource
      exact hnodup.disjoint hsource hrest

end Groups

/-- Groups for different slots are read in every order and in every spelling: each value is that of its group,
and the standard one where there is no group.  One group more for any of the slots is refused wherever it
stands, a path as an operand too many and an option as given twice. -/
theorem ofArguments_in_any_order (groups : List Group) (hvalid : ∀ group ∈ groups, group.Valid)
    (hnodup : (groups.map Group.slot).Nodup) :
    ofArguments (groups.flatMap Group.words) = .ok (.run
      ⟨(groups.findSome? Group.source?).getD "test.src", groups.findSome? Group.output?,
        (groups.findSome? Group.stage?).getD .js⟩) ∧
    ∀ before after extra, groups = before ++ after → extra.Valid → extra.slot ∈ groups.map Group.slot →
      ofArguments ((before ++ extra :: after).flatMap Group.words) =
        .error (if extra.slot = .source then .unknownArgument else .argumentConflict) := by
  constructor
  · obtain ⟨given, pending, hsettle, hread⟩ := exists_state_of_groups hvalid hnodup
    have hend := hread []
    rw [List.append_nil, ofWords_end, hsettle] at hend
    exact hend
  · rintro before after extra rfl hextra hslot
    exact ofArguments_of_repeated hvalid hextra hnodup hslot

/-- A source with the name of a stage and an output that looks like an option with its value, and a second
output in front of all groups or behind the first of them. -/
theorem ofArguments_in_any_order_lookalikes :
    let groups : List Group := [.stage .name .src, .source "js", .output .letterJoined "emit=ast"]
    let extra : Group := .output .name "tokens"
    ((∀ group ∈ groups, group.Valid) ∧ (groups.map Group.slot).Nodup ∧
      groups.flatMap Group.words = ["--emit", "src", "js", "-oemit=ast"] ∧
      ofArguments ["--emit", "src", "js", "-oemit=ast"] = .ok (.run ⟨"js", some "emit=ast", .src⟩)) ∧
    extra.Valid ∧ extra.slot ∈ groups.map Group.slot ∧
      ofArguments ["--output", "tokens", "--emit", "src", "js", "-oemit=ast"] = .error .argumentConflict ∧
      ofArguments ["--emit", "src", "--output", "tokens", "js", "-oemit=ast"] =
        .error .argumentConflict := by
  intro groups extra
  have hvalid : ∀ group ∈ groups, group.Valid := by decide
  have hnodup : (groups.map Group.slot).Nodup := by decide
  have hextra : extra.Valid := by decide
  have hslot : extra.slot ∈ groups.map Group.slot := by decide
  obtain ⟨hread, hrefused⟩ := ofArguments_in_any_order groups hvalid hnodup
  exact ⟨⟨hvalid, hnodup, rfl, hread⟩, hextra, hslot, hrefused [] groups extra rfl hextra hslot,
    hrefused [.stage .name .src] [.source "js", .output .letterJoined "emit=ast"] extra rfl hextra hslot⟩

end Request

end OneDef
