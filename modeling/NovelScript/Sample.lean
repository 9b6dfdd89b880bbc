import NovelScript.Text.Layout

/-!
# Sample scripts

Two scripts that come with the front end: a short game without problems, and one of each problem
that parsing recovers from.
-/

namespace NovelScript

inductive Sample where
  | theQuestion
  | broken
  deriving DecidableEq, Repr

namespace Sample

def all : List Sample := [.theQuestion, .broken]

def name : Sample → String
  | theQuestion => "the_question.rpy"
  | broken => "broken.rpy"

def ofName? (name : String) : Option Sample := all.find? (·.name == name)

def lines : Sample → List String
  | theQuestion =>
      [
        "# The Question, abridged.",
        "",
        "define s = Character(\"Sylvie\", color=\"#c8ffc8\")",
        "define 5 config.window_title = \"The Question\"",
        "default book = False",
        "",
        "label start:",
        "    $ points = 0",
        "    scene bg meadow",
        "    \"After a short while, we reach the meadow.\"",
        "    s \"Hi there! How was class?\"",
        "    call rig(1)",
        "    pause 0.5",
        "    jump choice",
        "",
        "label rig(amount=1):",
        "    $ points += amount",
        "    return",
        "",
        "label choice:",
        "    menu:",
        "        \"To ask her right away.\":",
        "            jump rightaway",
        "        \"To ask her later.\":",
        "            jump later",
        "    return",
        "",
        "label rightaway:",
        "    show sylvie green smile",
        "    return (book)",
        "",
        "label later:",
        "    pass",
        "    return"]
  | broken =>
      [
        "label start:",
        "    jump",
        "    jump nowhere",
        "    call start(1",
        "    return 1 2",
        "define dup = 1",
        "define dup = 2",
        "e \"unterminated"]

def source (sample : Sample) : String := Text.unlines sample.lines

end Sample

end NovelScript
