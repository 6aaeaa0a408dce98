import LineShell.Error

/-!
Startup arguments. The shell is started with none, or with `-p` and a prompt.
-/
namespace LineShell

structure Options where
  prompt : String := "308sh> "
  deriving DecidableEq, Repr

namespace Options

def default : Options := {}

def parse : List String → Except ArgumentError Options
  | [] => .ok default
  | [flag, prompt] => if flag = "-p" then .ok ⟨prompt⟩ else .error .unknown
  | _ => .error .count

end Options
end LineShell
