/-
  FirmwareMailbox.Telemetry.Page — the gauges as the text page that collectors fetch.

  Families in the order of their names; each has a line of help, a line with its type, and a line
  for every socket. A machine without sockets has no families.
-/

import FirmwareMailbox.Telemetry.Exporter
import FirmwareMailbox.Text.Numeral

namespace FirmwareMailbox.Exporter

open Text

/-- The type of the page. -/
def contentType : String := "text/plain; version=0.0.4"

/-- The line of one gauge. -/
def sampleLine (e : Exporter) (g : Metric) (socket : Nat) : String :=
  g.name ++ "\x7bsocket=\"" ++ decimal socket ++ "\"\x7d " ++ decimal (e.gauge g socket).toNat

/-- The lines of one family. -/
def familyLines (e : Exporter) (g : Metric) : List String :=
  ["# HELP " ++ g.name ++ " " ++ g.help, "# TYPE " ++ g.name ++ " gauge"] ++
    (List.range e.sockets).map (e.sampleLine g)

/-- The gauges by name. -/
def byName : List Metric := Metric.all.mergeSort fun a b => a.name ≤ b.name

def pageLines (e : Exporter) : List String :=
  if e.sockets = 0 then [] else byName.flatMap e.familyLines

/-- The page: every line ends in a newline. -/
def page (e : Exporter) : String := String.join (e.pageLines.map (· ++ "\n"))

end FirmwareMailbox.Exporter
