import Mathlib.Data.List.Basic
import ForwardX.Lib.Assoc
import ForwardX.Lib.Commands

/- A table of a packet filter: named chains of rules in order, and the commands that list and
   change them. A command works, or is reported as failed whether or not it took effect (`Obeys`);
   what it leaves follows from the chain that it names (`Obeys.lookup`, `Obeys.rulesOf`). -/
namespace PacketFilter
open Commands

abbrev Rule := List String

abbrev Table := List (String × List Rule)

def builtin : List String := ["PREROUTING", "INPUT", "FORWARD", "OUTPUT", "POSTROUTING"]

def target (rule : Rule) : Option String :=
  match rule.reverse with
  | chain :: jump :: _ => if jump = "-j" then some chain else none
  | _ => none

def rulesOf (table : Table) (chain : String) : List Rule := (table.lookup chain).getD []

/-- `-S`, `-N`, `-C`, `-I` at the first place, `-A`, `-D`, `-F` and `-X`. -/
inductive Command
  | list
  | new (chain : String)
  | check (chain : String) (rule : Rule)
  | insert (chain : String) (rule : Rule)
  | append (chain : String) (rule : Rule)
  | delete (chain : String) (rule : Rule)
  | flush (chain : String)
  | remove (chain : String)
  deriving DecidableEq, Repr

/-- The lines of `-S`, by their words. -/
def listing (table : Table) : List (List String) :=
  table.map (fun entry => if entry.1 ∈ builtin then ["-P", entry.1, "ACCEPT"] else ["-N", entry.1]) ++
    table.flatMap (fun entry => entry.2.map (fun rule => "-A" :: entry.1 :: rule))

/-- What a command does, if it can. -/
def run (table : Table) : Command → Option (Table × List (List String))
  | .list => some (table, listing table)
  | .new chain => if (table.lookup chain).isSome then none else some (Assoc.put table chain [], [])
  | .check chain rule => if rule ∈ rulesOf table chain then some (table, []) else none
  | .insert chain rule => (table.lookup chain).map (fun rules => (Assoc.put table chain (rule :: rules), []))
  | .append chain rule => (table.lookup chain).map (fun rules => (Assoc.put table chain (rules ++ [rule]), []))
  | .delete chain rule =>
    if rule ∈ rulesOf table chain then some (Assoc.put table chain ((rulesOf table chain).erase rule), []) else none
  | .flush chain => (table.lookup chain).map (fun _ => (Assoc.put table chain [], []))
  | .remove chain =>
    if table.lookup chain = some [] ∧ chain ∉ builtin ∧
        table.all (fun entry => entry.2.all (fun rule => target rule ≠ some chain)) = true then
      some (Assoc.erase table chain, [])
    else none

abbrev Answer := Except String (List (List String))

/-- A command works, or fails without effect, or is killed after it took effect. -/
inductive Obeys (table : Table) (command : Command) : Answer → Table → Prop
  | works {after : Table} {output : List (List String)} :
      run table command = some (after, output) → Obeys table command (.ok output) after
  | fails (err : String) : Obeys table command (.error err) table
  | killed {after : Table} {output : List (List String)} (err : String) :
      run table command = some (after, output) → Obeys table command (.error err) after

/-- The chain that a command names. -/
def Command.chain : Command → Option String
  | .list => none
  | .new chain => some chain
  | .check chain _ => some chain
  | .insert chain _ => some chain
  | .append chain _ => some chain
  | .delete chain _ => some chain
  | .flush chain => some chain
  | .remove chain => some chain

/-- What a command that works makes of the rules of its chain. -/
def Command.effect : Command → List Rule → List Rule
  | .insert _ rule, rules => rule :: rules
  | .append _ rule, rules => rules ++ [rule]
  | .delete _ rule, rules => rules.erase rule
  | .flush _, _ => []
  | .remove _, _ => []
  | _, rules => rules

variable {table after : Table} {command : Command} {answer : Answer} {name : String}

/-- A command that works changes nothing, or the rules of its chain; a chain that is removed has none. -/
theorem run_cases {output : List (List String)} (h : run table command = some (after, output)) :
    after = table ∨ ∃ chain, command.chain = some chain ∧ (after = Assoc.put table chain (command.effect (rulesOf table chain)) ∨
      (after = Assoc.erase table chain ∧ command.effect (rulesOf table chain) = [])) := by
  cases command with
  | list =>
    cases h
    exact Or.inl rfl
  | new chain =>
    obtain ⟨hfree, hafter⟩ := Option.ite_none_left_eq_some.mp h
    cases hafter
    refine Or.inr ⟨chain, rfl, Or.inl ?_⟩
    rw [Command.effect, rulesOf, Option.not_isSome_iff_eq_none.mp hfree, Option.getD_none] <;> simp
  | check chain rule =>
    obtain ⟨-, hafter⟩ := Option.ite_none_right_eq_some.mp h
    cases hafter
    exact Or.inl rfl
  | insert chain rule =>
    obtain ⟨rules, hrules, hafter⟩ := Option.map_eq_some_iff.mp h
    cases hafter
    exact Or.inr ⟨chain, rfl, Or.inl (by rw [Command.effect, rulesOf, hrules, Option.getD_some])⟩
  | append chain rule =>
    obtain ⟨rules, hrules, hafter⟩ := Option.map_eq_some_iff.mp h
    cases hafter
    exact Or.inr ⟨chain, rfl, Or.inl (by rw [Command.effect, rulesOf, hrules, Option.getD_some])⟩
  | delete chain rule =>
    obtain ⟨-, hafter⟩ := Option.ite_none_right_eq_some.mp h
    cases hafter
    exact Or.inr ⟨chain, rfl, Or.inl rfl⟩
  | flush chain =>
    obtain ⟨rules, -, hafter⟩ := Option.map_eq_some_iff.mp h
    cases hafter
    exact Or.inr ⟨chain, rfl, Or.inl rfl⟩
  | remove chain =>
    obtain ⟨-, hafter⟩ := Option.ite_none_right_eq_some.mp h
    cases hafter
    exact Or.inr ⟨chain, rfl, Or.inr ⟨rfl, rfl⟩⟩

theorem Obeys.outcome (h : Obeys table command answer after) :
    after = table ∨ ∃ output, run table command = some (after, output) := by
  cases h with
  | works hrun => exact Or.inr ⟨_, hrun⟩
  | fails err => exact Or.inl rfl
  | killed err hrun => exact Or.inr ⟨_, hrun⟩

theorem Obeys.reads (h : Obeys table command answer after)
    (hread : ∀ output, run table command = some (after, output) → after = table) : after = table := by
  obtain hsame | ⟨output, hrun⟩ := h.outcome
  · exact hsame
  · exact hread output hrun

theorem Obeys.lookup (h : Obeys table command answer after) (hne : command.chain ≠ some name) :
    after.lookup name = table.lookup name := by
  obtain rfl | ⟨output, hrun⟩ := h.outcome
  · rfl
  · obtain rfl | ⟨chain, hchain, hafter⟩ := run_cases hrun
    · rfl
    · have hother : name ≠ chain := fun heq => hne (heq ▸ hchain)
      obtain rfl | ⟨rfl, -⟩ := hafter
      · exact Assoc.lookup_put_ne table hother _
      · exact Assoc.lookup_erase_ne table hother

/-- A command without effect leaves the rules of every chain, and one with an effect has it on those of its own. -/
theorem Obeys.rulesOf (h : Obeys table command answer after) (name : String) :
    rulesOf after name = rulesOf table name ∨
      (command.chain = some name ∧ rulesOf after name = command.effect (rulesOf table name)) := by
  by_cases hchain : command.chain = some name
  · obtain rfl | ⟨output, hrun⟩ := h.outcome
    · exact Or.inl rfl
    · obtain rfl | ⟨chain, hown, hafter⟩ := run_cases hrun
      · exact Or.inl rfl
      · obtain rfl : chain = name := Option.some.inj (hown.symm.trans hchain)
        refine Or.inr ⟨hchain, ?_⟩
        obtain rfl | ⟨rfl, hnil⟩ := hafter
        · rw [PacketFilter.rulesOf, Assoc.lookup_put_self, Option.getD_some]
        · rw [PacketFilter.rulesOf, Assoc.lookup_erase_self, Option.getD_none, hnil]
  · left
    rw [PacketFilter.rulesOf, h.lookup hchain, PacketFilter.rulesOf]

end PacketFilter
