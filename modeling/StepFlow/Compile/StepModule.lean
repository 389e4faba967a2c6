import StepFlow.Compile.Manifest
import StepFlow.Text.Basic

/-!
The module around a code step. It loads the step's own source and reports when the step starts and
how it ends; what it knows of the step stands in its first line. The template's marks are replaced
in an order in which no text of a step is searched for marks.
-/
namespace StepFlow.Compile
open Text

def codeFile : String := "code.js"

def indexFile : String := "index.js"

def metaMark : String := "__META__"

def codeMark : String := "__CODE__"

def stepTemplate : List String :=
  ["const meta = __META__;",
    "",
    "module.exports = \x7b",
    "  run: async function (inputs, info) \x7b",
    "    try \x7b",
    "      console.log(JSON.stringify(\x7b startTime: Date.now(), inputs, info, meta \x7d));",
    "      const code = require(\"./__CODE__\");",
    "      const result = await code(inputs);",
    "      console.log(JSON.stringify(\x7b endTime: Date.now(), result, info, meta \x7d));",
    "      return result;",
    "    \x7d catch (e) \x7b",
    "      console.error(JSON.stringify(\x7b endTime: Date.now(), error: String(e), info, meta \x7d));",
    "      if (info && info.errorPolicy === \"stop\") \x7b",
    "        process.exit(1);",
    "      \x7d",
    "    \x7d",
    "  \x7d,",
    "\x7d;"]

def renderStepModule (info : StepMeta) : String :=
  let template := stepTemplate.flatMap fun line => line.toList ++ ['\n']
  let template := replaceAll codeMark.toList codeFile.toList template
  String.ofList (replaceAll metaMark.toList info.encode.print template)

end StepFlow.Compile
