import OpenCdc.Mongodb.Stream
import OpenCdc.Mysql.Stream
import OpenCdc.Postgres.Stream

/-!
# A receiver that goes away

What the streaming loops of the three connectors do once a send has failed
because the receiver of their channel is gone.
-/

namespace OpenCdc.Pipeline

open Foundation

/-- One of the streaming loops with the source that it reads. -/
inductive StreamingLoop where
  | postgres (config : Postgres.StreamerConfig)
      (state : Postgres.StreamerState) (ended : Bool)
      (items : List Postgres.StreamItem)
  | mysql (json : Mysql.JsonParser) (state : Mysql.ParserState)
      (ended : Option String) (bodies : List Mysql.EventBody)
  | mongodb (config : Mongodb.StreamerConfig) (ended : Bool)
      (items : List (Except String Mongodb.ChangeStreamEvent))

namespace StreamingLoop

/-- Once a send has failed, the loop reads no further event and returns. -/
def Stops (room : Room) : StreamingLoop → Prop
  | .postgres config state ended items =>
      StopsAfterRefusal
        (Postgres.processStream config ended state room items)
  | .mysql json state ended bodies =>
      StopsAfterRefusal (Mysql.streamBodies json ended state room bodies)
  | .mongodb config ended items =>
      StopsAfterRefusal (Mongodb.run config ended room items)

/-- The receiver goes away late enough for the loop; the loop over a change
stream does not depend on it. -/
def ReceiverOutlasts (room : Room) : StreamingLoop → Prop
  | .postgres config state ended items =>
      (Postgres.streamFeed config).Outlasts
        (if ended then some (.ok ()) else none) state room items
  | .mysql json state ended bodies =>
      (Mysql.streamFeed json).Outlasts
        (ended.map fun message => .error (Mysql.readError message)) state room
        bodies
  | .mongodb _ _ _ => True

/-- The loops of Postgres and MySQL read on behind a failed send unless nothing
is left to read, and only the one of MongoDB is left at once. -/
theorem stops_iff (loop : StreamingLoop) (room : Room) :
    loop.Stops room ↔ loop.ReceiverOutlasts room := by
  cases loop with
  | postgres config state ended items =>
      rw [Stops, Postgres.processStream_eq_run]
      exact Feed.stopsAfterRefusal_iff (by simp [Postgres.streamFeed])
  | mysql json state ended bodies =>
      rw [Stops, Mysql.streamBodies_eq_run]
      exact Feed.stopsAfterRefusal_iff (by simp [Mysql.streamFeed])
  | mongodb config ended items =>
      rw [Stops, Mongodb.run_eq_run]
      exact iff_of_true
        (Feed.stopsAfterRefusal_of_leaveLoop rfl _ () room items) trivial

/-- Over packets of one event the loop of `stream` stops if the loop over their
bodies does. -/
theorem stopsAfterRefusal_mysqlStream {json : Mysql.JsonParser}
    {state : Mysql.ParserState} {room : Room} {singles : List Mysql.Single}
    (h : Stops room (.mysql json state
      (some "read packet header failed: early eof")
      (singles.map Mysql.Single.body))) :
    let run := Mysql.stream json
      ⟨singles.flatMap fun single => single.packet.bytes, state⟩ room
    StopsAfterRefusal (run.1, some run.2) := by
  obtain ⟨hseen, hresult⟩ :=
    Mysql.stream_eq_streamBodies json singles state room
  dsimp only
  rw [hseen, hresult]
  exact StopsAfterRefusal.retell h

/-- Behind the refused insert a further chunk is read. -/
theorem not_stops_announcedInsert :
    ¬ Stops (some 0) (.postgres ⟨"db", fun _ => none⟩ {} true
      ((Postgres.announcedInsert ++ [((⟨0, 0⟩, []) : Postgres.Chunk)]).map
        Postgres.Chunk.item)) := by
  rw [Stops, Postgres.processStream_eq_run,
    Feed.stopsAfterRefusal_iff (by simp [Postgres.streamFeed])]
  unfold Feed.Outlasts
  decide

end StreamingLoop
end OpenCdc.Pipeline
