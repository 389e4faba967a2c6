import Std.Time.DateTime.Timestamp
import StepFlow.CommandLine.Basic

/-!
The command line over the files of this computer. The files that a command may look at are read
first; the outcome is computed; what it changed is written back and its texts are printed.
Programs run on the host of `StepFlow.Shell`, which knows scripts and a few tools.
-/
namespace StepFlow.Main
open CommandLine Workspace

def lookedAt (home : String) (t : FileTree) (call : Call) : List String :=
  let config := Engine.Config.ofDataDir (call.dataDir.getD (joinPath home ".conduit"))
  match call.command with
  | none => []
  | some (.compile flow out) => flow :: (out.map fun dir => joinPath dir programFile).toList
  | some (.run flow app _ _ interpreter) =>
    let dir := config.appDir app
    let nodes := (loadFlow t flow).toOption.getD []
    let written := match Compile.compile config.groupRoot nodes with
      | .error _ => []
      | .ok program =>
        program.manifest.groups.map (·.path) ++
          program.manifest.inlineCode.flatMap fun (id, _) =>
            let step := joinPath (joinPath dir "components") id
            [joinPath step "code.js", joinPath step "index.js"]
    [flow, interpreter, joinPath dir programFile, joinPath dir "global.json",
      joinPath dir "meta.json"] ++ written

def onTheWay (place : Place) : List Place :=
  (List.range (place.length + 1)).map fun n => place.take n

def readPlace (t : FileTree) (place : Place) : IO FileTree := do
  if place.isEmpty || (t.get? place).isSome then return t
  let path := Shell.State.placeText place
  try
    let contents ← IO.FS.readFile path
    return t.put place (.file contents true)
  catch _ =>
    try
      let _ ← IO.FS.realPath path
      return t.put place .directory
    catch _ => return t

def readPaths (t : FileTree) (paths : List String) : IO FileTree :=
  paths.foldlM (fun t path =>
    (onTheWay (t.start path ++ segments path)).foldlM readPlace t) t

/-- Writes back what is new or different. -/
def writeBack (before after : FileTree) : IO Unit :=
  for (place, entry) in after.entries do
    if before.get? place != some entry then
      match entry with
      | .directory => IO.FS.createDirAll (Shell.State.placeText place)
      | .file contents _ => IO.FS.writeFile (Shell.State.placeText place) contents

def newRun : IO String := do
  let bytes ← IO.getRandomBytes 16
  let hex := bytes.toList.flatMap fun b =>
    let digits := Nat.toDigits 16 b.toNat
    List.replicate (2 - digits.length) '0' ++ digits
  let group (first n : Nat) := String.ofList ((hex.drop first).take n)
  return "-".intercalate [group 0 8, group 8 4, "4" ++ group 13 3, "a" ++ group 17 3, group 20 12]

end StepFlow.Main

open StepFlow StepFlow.CommandLine in
def main (args : List String) : IO UInt32 := do
  let home := (← IO.getEnv "HOME").getD "/"
  let now := (← Std.Time.Timestamp.now).toMillisecondsSinceUnixEpoch.val.toNat * 1000
  let here : Workspace.FileTree := { here := Workspace.segments (← IO.currentDir).toString }
  let files ← match readCall args with
    | .error _ => pure here
    | .ok call =>
      let files ← Main.readPaths here (Main.lookedAt home here call)
      Main.readPaths files (Main.lookedAt home files call)
  let o := perform { files, home, now, run := ← Main.newRun } args
  Main.writeBack files o.files
  (← IO.getStdout).putStr o.stdout
  (← IO.getStderr).putStr o.stderr
  return o.exit.toUInt32
