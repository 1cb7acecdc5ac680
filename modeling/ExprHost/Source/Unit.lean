import ExprHost.Source.Container
import ExprHost.Source.Preamble
import ExprHost.Types.HostType

/-!
# Source units

The text handed to the compiler: the preamble, and a container whose accessor
evaluates the expression in parentheses and turns a panic into text. The expression
is spliced in as it stands.

* `SourceUnit.text`: the unit for a return type and an expression.
* `SourceUnit.read?`: the type and the expression of a unit with a known preamble.
-/

namespace ExprHost.SourceUnit

/-- From the preamble to the return type. -/
def opening : String :=
  "\n#[allow(non_snake_case, non_upper_case_globals)]\n" ++
  "pub mod " ++ Container.name ++ " \x7b\n" ++
  "    use super::*;\n" ++
  "\n" ++
  "    #[unsafe(no_mangle)]\n" ++
  "    pub static " ++ Container.name ++ ": u32 = " ++ toString Container.version ++ ";\n" ++
  "\n" ++
  "    #[unsafe(no_mangle)]\n" ++
  "    pub extern \"Rust\" fn " ++ Container.accessor ++ "() -> ::std::result::Result<"

/-- From the first to the second mention of the return type. -/
def between : String :=
  ", ::std::string::String> \x7b\n" ++
  "        let evaluate = || -> "

/-- From the return type to the expression. -/
def before : String := " \x7b (\n"

/-- What follows the expression. While it runs, panics are reported nowhere. -/
def closing : String :=
  "\n" ++
  "        ) \x7d;\n" ++
  "        let previous_hook = ::std::panic::take_hook();\n" ++
  "        ::std::panic::set_hook(::std::boxed::Box::new(|_| \x7b\x7d));\n" ++
  "        let outcome = ::std::panic::catch_unwind(::std::panic::AssertUnwindSafe(evaluate));\n" ++
  "        ::std::panic::set_hook(previous_hook);\n" ++
  "        outcome.map_err(|payload| \x7b\n" ++
  "            match payload.downcast::<::std::string::String>() \x7b\n" ++
  "                Ok(message) => *message,\n" ++
  "                Err(payload) => match payload.downcast_ref::<&'static str>() \x7b\n" ++
  "                    Some(message) => ::std::string::ToString::to_string(message),\n" ++
  "                    None => ::std::string::String::from(\"" ++ Container.otherPayload ++ "\"),\n" ++
  "                \x7d,\n" ++
  "            \x7d\n" ++
  "        \x7d)\n" ++
  "    \x7d\n" ++
  "\x7d\n"

/-- **The unit** that evaluates an expression as a type with the given spelling. -/
def text (preamble : Preamble) (returnType expression : String) : String :=
  preamble.text ++ opening ++ returnType ++ between ++ returnType ++ before ++ expression ++ closing

/-- The return type and the expression of a unit with a known preamble. -/
def read? (preamble : Preamble) (source : String) : Option (HostType × String) := do
  let cs ← Text.dropStart? (preamble.text ++ opening).toList source.toList
  let (t, ⟨cs, _⟩) ← HostType.read? cs
  let cs ← Text.dropStart? (between ++ t.spelling ++ before).toList cs
  let expression ← Text.dropEnd? closing.toList cs
  return (t, String.ofList expression)

end ExprHost.SourceUnit
