import ProximityLab.Terminal.Basic
import ProximityLab.Text.Lines

/-!
# Devices that follow rules

A scripted device answers a line by the first of its rules that fits: the line begins with the
rule's start and the rule is not used up. A line that no rule fits is taken without an answer.
-/

namespace ProximityLab

/-- One rule of a scripted device. -/
structure Rule where
  /-- How the lines begin that the rule answers. -/
  start : String
  /-- How often the rule can still be used, if that is limited. -/
  uses : Option Nat
  reply : Reply

namespace Rule

/-- The rule answers this line. -/
def fits (r : Rule) (line : String) : Bool := Text.startsWith r.start line && r.uses != some 0

/-- The rule after a use. -/
def used (r : Rule) : Rule := { r with uses := r.uses.map (· - 1) }

/-- The rules after a line. -/
def afterLine (line : String) : List Rule → List Rule
  | [] => []
  | r :: rs => if r.fits line then r.used :: rs else r :: afterLine line rs

/-- The answer to a line. -/
def answer (line : String) (rs : List Rule) : Reply :=
  match rs.find? (·.fits line) with
  | some r => r.reply
  | none => .accepted []

end Rule

/-- The behaviour of a device that prints a banner and follows rules. -/
def Behaviour.scripted (banner : List Timed) (rules : List Rule) (closeFault : Option String) :
    Behaviour :=
  { banner := banner
    respond := fun earlier line =>
      Rule.answer line (earlier.foldl (fun rs l => Rule.afterLine l rs) rules)
    closeFault := closeFault
    leaves := fun _ => [] }

end ProximityLab
