import SeriesClient.Export.Sink

/-! A sink that keeps the calls made on it, and can be told to refuse one of them. -/
namespace SeriesClient.Export

inductive SinkCall where
  | begin (layout : Layout)
  | row (timestamp : Option Int64) (cells : Row)
  | finish
deriving DecidableEq, Repr

structure Recorder where
  /-- Number of the call to refuse, from zero. -/
  refusedCall : Option Nat := none
  calls : List SinkCall := []
deriving DecidableEq, Repr

namespace Recorder

/-- Keeps the call, also when it is the one to refuse. -/
def keep (call : SinkCall) (recorder : Recorder) : Except Error Unit × Recorder :=
  let answer := if recorder.refusedCall = some recorder.calls.length then
      .error (.sink (.reported "sink refused"))
    else .ok ()
  (answer, { recorder with calls := recorder.calls ++ [call] })

instance : RowSink Recorder where
  begin layout := keep (.begin layout)
  writeRow timestamp cells := keep (.row timestamp cells)
  finish := keep .finish

end Recorder
end SeriesClient.Export
