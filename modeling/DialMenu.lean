import DialMenu.Definition.Report
import DialMenu.Draft
import DialMenu.Machine.Outline
import DialMenu.Menus.Board
import DialMenu.Menus.Encoding
import DialMenu.Proofs.Definition.Reading
import DialMenu.Proofs.Definition.Tally
import DialMenu.Proofs.Draft.Build
import DialMenu.Proofs.Interpreter.Adequacy
import DialMenu.Proofs.Interpreter.Feedback
import DialMenu.Proofs.Interpreter.Locality
import DialMenu.Proofs.Menus.AskAgain
import DialMenu.Proofs.Menus.Blocked
import DialMenu.Proofs.Menus.LanguageSelection
import DialMenu.Proofs.Menus.MissingFields
import DialMenu.Proofs.Menus.NumberSpelling
import DialMenu.Proofs.Menus.PinGate
import DialMenu.Proofs.Menus.PinSecrecy
import DialMenu.Proofs.Menus.ProfileEdits
import DialMenu.Proofs.Menus.ProfileHistory
import DialMenu.Proofs.Menus.ProfileView
import DialMenu.Proofs.Menus.Rejections
import DialMenu.Proofs.Menus.Success
import DialMenu.Proofs.Resolution
import DialMenu.Proofs.Session.Agreement
import DialMenu.Proofs.Session.Leases
import DialMenu.Proofs.Session.Lifetimes
import DialMenu.Proofs.TemplateKey
import DialMenu.Rehearsal.Rules
import DialMenu.Rehearsal.Script
