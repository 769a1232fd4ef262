import FtpControl.Console
import FtpControl.Script.SessionBench

namespace FtpControl.Script

/-- The events of a session that connects. A watchdog may have to end what nothing answers. -/
def loginEvents (today : Date) (profile : Profile) (net : Network) : List Event :=
  let b := (SessionBench.create profile false net).settle today
  let b := b.stimulate today (.request .connect)
  let (early, b) := b.takeNews
  let late := match b.passTime? with
    | some b => (b.settle today).takeNews.1
    | none => []
  early ++ late

/-- Runs the program; `open?` gives what is in a file. -/
def runConsole (today : Date) (open? : String → Except Profile.FileFault (List Char))
    (net : Network) (args : List String) : Console.Result :=
  match Console.Options.ofArgs? args with
  | none => { status := .usage }
  | some options =>
    match Profile.ofFile options.config (open? options.config) with
    | .error failure => .refused failure
    | .ok saved =>
      let profile := options.adapt saved
      let watch := Console.Watch.ofProfile profile
      let (events, status) := watch.follow (loginEvents today profile net)
      { status := status.getD .failure, output := events.flatMap (Console.lines options.json) }

end FtpControl.Script
