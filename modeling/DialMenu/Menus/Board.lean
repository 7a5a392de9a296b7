import DialMenu.Menus.Guardians
import DialMenu.Menus.Languages
import DialMenu.Menus.ProfileMenu
import DialMenu.Session.Switchboard

/-!
The menus by name, and a switchboard with all of them.
-/

namespace DialMenu.Menus

inductive Menu where
  | languages
  | profile
  | guardians
deriving DecidableEq, Inhabited

namespace Menu

def all : List Menu := [languages, profile, guardians]

def definition : Menu → Definition
  | languages => Languages.definition
  | profile => ProfileMenu.definition
  | guardians => Guardians.definition

def bindings (currentYear : Int) : Menu → Bindings Subscriber Backends
  | languages => Languages.bindings
  | profile => ProfileMenu.bindings currentYear
  | guardians => Guardians.bindings

/-- The menu's own name is that of its machine. -/
def ofName? (s : String) : Option Menu := all.find? fun menu => menu.definition.id = s

/-- The machine of a menu. -/
def machine (currentYear : Int) (menu : Menu) : Except BuildError (Machine Subscriber Backends) :=
  (menu.bindings currentYear).resolve menu.definition

end Menu

variable {S : Type}

/-- A switchboard with every menu. -/
def switchboard (currentYear : Int) (store : SessionStore S Subscriber) (config : Config) :
    Except BuildError (Switchboard Subscriber Backends S) :=
  Menu.all.foldlM (fun board menu => return board.register { machine := ← menu.machine currentYear })
    { store, config }

end DialMenu.Menus
