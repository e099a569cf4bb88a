import ReadModel.Database.Events
import ReadModel.Handler.Trigger

/-!
Handlers over a database.

The calls of a handler on its storage, and those on the log if it is there too, become statements.
What else a handler asks for is left as it is.
-/

namespace ReadModel

/-- Two interfaces side by side. -/
@[reducible]
def Interface.beside (I J : Interface) : Interface where
  Call := I.Call ⊕ J.Call
  Answer
    | .inl c => I.Answer c
    | .inr c => J.Answer c

/-- A program that asks only the first of two interfaces. -/
def Dialogue.onFirst {I J : Interface} {α : Type} (d : Dialogue I α) : Dialogue (I.beside J) α :=
  d.expand fun c => @Dialogue.call (I.beside J) (.inl c)

/-- A program that asks only the second of two interfaces. -/
def Dialogue.onSecond {I J : Interface} {α : Type} (d : Dialogue J α) : Dialogue (I.beside J) α :=
  d.expand fun c => @Dialogue.call (I.beside J) (.inr c)

/-- A database, and what else handlers ask for. -/
@[reducible]
def databaseInterface : Interface := sqlInterface.beside handlerInterface

/-- A handler's call where only its storage is in the database. -/
def storeInDatabase : (c : HandlerCall) → Dialogue databaseInterface c.Answer
  | .store c => (sqlStore c).onFirst
  | c => (@Dialogue.call handlerInterface c).onSecond

/-- A handler's call where its storage and the log are in the database. -/
def allInDatabase : (c : HandlerCall) → Dialogue databaseInterface c.Answer
  | .store c => (sqlStore c).onFirst
  | .source c => (sqlSource c).onFirst
  | c => (@Dialogue.call handlerInterface c).onSecond

end ReadModel
